import FastapiEffects.Testing.Reference
import FastapiEffects.Python.RoundTrip

/-! # The boundary contract on the reference driver

What the contract says of replay, of lease fencing, of terminal deliveries and of handoffs, on
every sequence of calls.
-/

namespace FastapiEffects

namespace Reference

open Python

/-! ## Calls -/

/-- A call of a method that reads or writes deliveries or handoffs, or draws an identifier. -/
inductive Call where
  | publish (principal : Principal) (businessKey : Str) (destinations : List Str)
      (correlationId : UUID) (causationId : Option UUID) (commit : Bool)
  | snapshot (principal : Principal) (tenantId : UUID)
  | claim (deliveryId : UUID)
  | finalize (lease : LeaseView) (outcome : Str)
  | delivery (deliveryId : UUID)
  | replay (deliveryId : UUID)
  | enqueueHandoff (principal : Principal) (deliveryId attemptId : UUID)
  | executeHandoff (handoffId : UUID)
  | mintDelegation (principal : Principal) (path : Str) (scopes : List Str) (ttl : Timedelta)
  | reset
  | close

/-- The method of a call, whose result is dropped. -/
def Call.method : Call → Method Unit
  | .publish principal businessKey destinations correlationId causationId commit =>
      discard (Reference.publish principal businessKey destinations correlationId causationId commit)
  | .snapshot principal tenantId => discard (Reference.snapshot principal tenantId)
  | .claim deliveryId => discard (Reference.claim deliveryId)
  | .finalize lease outcome => discard (Reference.finalize lease outcome)
  | .delivery deliveryId => discard (Reference.delivery deliveryId)
  | .replay deliveryId => discard (Reference.replay deliveryId)
  | .enqueueHandoff principal deliveryId attemptId =>
      discard (Reference.enqueueHandoff principal deliveryId attemptId)
  | .executeHandoff handoffId => discard (Reference.executeHandoff handoffId)
  | .mintDelegation principal path scopes ttl =>
      discard (Reference.mintDelegation principal path scopes ttl)
  | .reset => Reference.reset
  | .close => Reference.close

/-- What a method returns on a driver, and what it makes of it. -/
def Method.on {α : Type} (m : Method α) (d : Driver) : Except BoundaryError α × Driver :=
  StateT.run (ExceptT.run m) d

/-- The result of a call. -/
def Call.result (c : Call) (d : Driver) : Except BoundaryError Unit := (c.method.on d).1

/-- The driver after a call. -/
def Call.next (c : Call) (d : Driver) : Driver := (c.method.on d).2

/-- The handoff whose work a call runs: the calls that raise its count of executions. -/
def Call.executed (c : Call) (d : Driver) : List UUID :=
  match c with
  | .executeHandoff h =>
      match d.handoffs.get h with
      | none => []
      | some r => if r.terminal ∧ .executorDuplicateExecution ∉ d.faults then [] else [h]
  | _ => []

/-- A driver after some calls, with the handoffs executed since it was last reset. -/
structure History where
  driver : Driver
  executed : List UUID

def History.call (s : History) (c : Call) : History where
  driver := c.next s.driver
  executed := match c with
    | .reset => []
    | c => s.executed ++ c.executed s.driver

/-- The history of some calls on a new driver without faults. -/
def history (calls : List Call) : History := calls.foldl History.call ⟨.initial [], []⟩

/-! ## The contract -/

/-- The statuses that no method leaves. -/
def Status.terminal (s : Status) : Bool := s = .succeeded ∨ s = .dead

/-- Whether a lease is the current one of its delivery. -/
def Driver.Leases (d : Driver) (lease : LeaseView) : Prop :=
  ∃ r, d.deliveries.get lease.deliveryId = some r ∧ r.status = .leased ∧
    r.activeLeaseToken = some lease.leaseToken

/-- What the contract says of one call. -/
structure Honours (d : Driver) (c : Call) : Prop where
  terminal : ∀ deliveryId, c = .replay deliveryId → c.result d = .ok () →
    ∃ r, d.deliveries.get deliveryId = some r ∧ r.status.terminal = true
  original : ∀ deliveryId, c = .replay deliveryId → ∀ id r, d.deliveries.get id = some r →
    (c.next d).deliveries.get id = some r
  fenced : ∀ lease outcome, c = .finalize lease outcome → ¬ d.Leases lease →
    (∃ e, c.result d = .error e) ∧ c.next d = d
  final : c ≠ .reset → ∀ id r, d.deliveries.get id = some r → r.status.terminal = true →
    (c.next d).deliveries.get id = some r

/-- What the contract says of a sequence of calls: each of them honours it, and up to each of them
no handoff was executed twice since the driver was last reset. -/
def Obeys (calls : List Call) : Prop :=
  (∀ before call after, calls = before ++ call :: after → Honours (history before).driver call) ∧
    ∀ before after, calls = before ++ after → (history before).executed.Nodup

/-! ## The methods -/

section Method

variable {α β : Type} {d : Driver}

@[simp] theorem Method.on_pure (a : α) : (pure a : Method α).on d = (.ok a, d) := rfl

@[simp] theorem Method.on_throw (e : BoundaryError) : (throw e : Method α).on d = (.error e, d) :=
  rfl

@[simp] theorem Method.on_get : (get : Method Driver).on d = (.ok d, d) := rfl

@[simp] theorem Method.on_modify (f : Driver → Driver) :
    (modify f : Method Unit).on d = (.ok (), f d) := rfl

theorem Method.on_bind (m : Method α) (f : α → Method β) :
    (m >>= f).on d = match m.on d with
      | (.ok a, d') => (f a).on d'
      | (.error e, d') => (.error e, d') := by
  show (match m.on d with
    | (x, d') => (ExceptT.bindCont f x).run d') = _
  rcases m.on d with ⟨e | a, d'⟩ <;> rfl

theorem Method.on_discard (m : Method α) :
    (discard m).on d = ((m.on d).1.map fun _ => (), (m.on d).2) := by
  have hbind : (discard m : Method Unit).on d = (m >>= fun _ => pure () : Method Unit).on d := rfl
  rw [hbind, Method.on_bind]
  rcases m.on d with ⟨e | a, d'⟩ <;> rfl

/-- A raise or a return leaves the driver to what comes next. -/
theorem Method.on_bind_snd (m : Method α) (f : α → Method β) :
    (m.on d).2 = ((m >>= f).on d).2 ∨
      ∃ a d', m.on d = (.ok a, d') ∧ ((m >>= f).on d).2 = ((f a).on d').2 := by
  rw [Method.on_bind]
  rcases m.on d with ⟨e | a, d'⟩
  · exact Or.inl rfl
  · exact Or.inr ⟨a, d', rfl, rfl⟩

theorem on_lookup {ρ : Type} (records : Dict UUID ρ) (id : UUID) :
    (lookup records id).on d = match records.get id with
      | some r => (.ok r, d)
      | none => (.error (.key id), d) := by
  unfold lookup
  cases records.get id <;> rfl

theorem on_liftExcept (x : Except BoundaryError α) :
    (liftExcept x : Method α).on d = (x, d) := by
  cases x <;> rfl

theorem on_nameUuid (name : Str) :
    (nameUuid name).on d = (match uuid5 namespaceUrl name with
      | some id => .ok id
      | none => .error .unicodeEncode, d) := by
  unfold nameUuid
  cases uuid5 namespaceUrl name <;> rfl

/-- The driver after it drew an identifier. -/
def Driver.drawn (d : Driver) : Driver := { d with counter := d.counter + 1 }

theorem on_uuid (label : Str) :
    (uuid label).on d = (match uuid5 namespaceUrl (idName label (d.counter + 1)) with
      | some id => .ok id
      | none => .error .unicodeEncode, d.drawn) := by
  simp only [uuid, Method.on_bind, Method.on_modify, Method.on_get, on_nameUuid, Driver.drawn]

end Method

/-! ## What a call changes -/

/-- The names a method hashes for the deliveries of an event, after the one of the event. -/
def destinationNames : ℕ → List Str → List Str
  | _, [] => []
  | counter, destination :: rest =>
      idName ("delivery:" ++ destination) (counter + 1) :: destinationNames (counter + 1) rest

/-- The names a call hashes for the deliveries it makes. -/
def Call.names (c : Call) (d : Driver) : List Str :=
  match c with
  | .publish _ _ destinations _ _ _ => destinationNames (d.counter + 1) destinations
  | .replay deliveryId => [idName ("replay:" ++ deliveryId.str) (d.counter + 1)]
  | _ => []

/-- The delivery a call changes in place. -/
def Call.target : Call → Option UUID
  | .claim deliveryId => some deliveryId
  | .finalize lease _ => some lease.deliveryId
  | _ => none

/-- What a call makes of the deliveries: nothing, a change of its target while that is live, or new
ones whose identifiers are hashed from its names. -/
inductive Changes (c : Call) (d d' : Driver) : Prop
  | same (h : d'.deliveries = d.deliveries)
  | moved (id : UUID) (r r' : DeliveryRecord) (hid : c.target = some id)
      (hr : d.deliveries.get id = some r) (hlive : r.status.terminal = false)
      (h : d'.deliveries = d.deliveries.set id r')
  | added (items : List (UUID × DeliveryRecord)) (h : d'.deliveries = d.deliveries.update items)
      (hnames : ∀ m ∈ items, ∃ label n, d.counter < n ∧ n ≤ d'.counter ∧
        idName label n ∈ c.names d ∧ uuid5 namespaceUrl (idName label n) = some m.1)

section Effects

variable {d d' : Driver}

theorem on_deliveryIds (destinations : List Str) (d : Driver) :
    ∃ x n, (deliveryIds destinations).on d = (x, { d with counter := n }) ∧ d.counter ≤ n ∧
      ∀ ids, x = .ok ids → ∀ id ∈ ids, ∃ label m, d.counter < m ∧ m ≤ n ∧
        idName label m ∈ destinationNames d.counter destinations ∧
        uuid5 namespaceUrl (idName label m) = some id := by
  induction destinations generalizing d with
  | nil =>
      refine ⟨.ok [], d.counter, rfl, le_refl _, fun ids hids id hid => ?_⟩
      cases hids
      cases hid
  | cons destination rest ih =>
      rw [deliveryIds, Method.on_bind, on_uuid]
      rcases hid : uuid5 namespaceUrl (idName ("delivery:" ++ destination) (d.counter + 1)) with
        _ | id
      · refine ⟨.error .unicodeEncode, d.counter + 1, rfl, Nat.le_succ _, fun ids hids => ?_⟩
        cases hids
      · rcases ih d.drawn with ⟨x, n, hrest, hle, hids⟩
        have hn : d.counter + 1 ≤ n := hle
        simp only [Method.on_bind, hrest]
        rcases x with e | ids
        · refine ⟨.error e, n, rfl, Nat.le_of_succ_le hn, fun ids hids => ?_⟩
          cases hids
        · refine ⟨.ok (id :: ids), n, rfl, Nat.le_of_succ_le hn, fun ids' hids' id' hid' => ?_⟩
          cases hids'
          rcases List.mem_cons.mp hid' with rfl | hid'
          · exact ⟨_, d.counter + 1, Nat.lt_succ_self _, hn, List.mem_cons_self, hid⟩
          · rcases hids ids rfl id' hid' with ⟨label, m, hlt, hm, hmem, hhash⟩
            exact ⟨label, m, Nat.lt_of_succ_lt hlt, hm, List.mem_cons_of_mem _ hmem, hhash⟩

theorem on_storeDeliveries (eventId tenantId : UUID) (pairs : List (UUID × Str)) (d : Driver) :
    (storeDeliveries eventId tenantId pairs).on d = (.ok (), { d with
      deliveries := d.deliveries.update (pairs.map fun p =>
        (p.1, pendingDelivery eventId tenantId p.1 p.2)) }) := by
  induction pairs generalizing d with
  | nil => rfl
  | cons p rest ih =>
      rw [storeDeliveries, Method.on_bind, putDelivery, Method.on_modify]
      exact ih _

/-- What a call changes, apart from a reset. -/
structure Performs (c : Call) (d d' : Driver) : Prop where
  faults : d'.faults = d.faults
  counter : d.counter ≤ d'.counter
  deliveries : Changes c d d'
  handoffs : d'.handoffs = d.handoffs ∨
    (∃ principal deliveryId attemptId h r, c = .enqueueHandoff principal deliveryId attemptId ∧
      uuid5 namespaceUrl (handoffName deliveryId attemptId) = some h ∧ r.terminal = false ∧
      d'.handoffs = d.handoffs.set h r) ∨
    ∃ h r r', c = .executeHandoff h ∧ d.handoffs.get h = some r ∧ r.terminal = false ∧
      r'.terminal = true ∧ d'.handoffs = d.handoffs.set h r'

/-- A call that changes neither deliveries nor handoffs. -/
theorem Performs.of_same {c : Call} (hfaults : d'.faults = d.faults)
    (hcounter : d.counter ≤ d'.counter) (hdeliveries : d'.deliveries = d.deliveries)
    (hhandoffs : d'.handoffs = d.handoffs) : Performs c d d' :=
  ⟨hfaults, hcounter, .same hdeliveries, Or.inl hhandoffs⟩

theorem performs_publish (principal : Principal) (businessKey : Str) (destinations : List Str)
    (correlationId : UUID) (causationId : Option UUID) (commit : Bool) (hfaults : d.faults = []) :
    Performs (.publish principal businessKey destinations correlationId causationId commit) d
      ((publish principal businessKey destinations correlationId causationId commit).on d).2 := by
  rw [publish, Method.on_bind, on_uuid]
  rcases uuid5 namespaceUrl (idName "event" (d.counter + 1)) with _ | eventId
  · exact .of_same rfl (Nat.le_succ _) rfl rfl
  rcases on_deliveryIds destinations d.drawn with ⟨x, n, hx, hle, hids⟩
  have hn : d.counter + 1 ≤ n := hle
  simp only [Method.on_bind, hx]
  rcases x with e | ids
  · exact .of_same rfl (Nat.le_of_succ_le hn) rfl rfl
  have hnil : d.drawn.faults = [] := hfaults
  cases commit with
  | false =>
      simp only [Method.on_get, hnil, List.not_mem_nil, if_false, Bool.not_false, if_true,
        Method.on_pure]
      exact .of_same hfaults.symm (Nat.le_of_succ_le hn) rfl rfl
  | true =>
      simp only [Method.on_get, hnil, List.not_mem_nil, if_false, not_false_eq_true, if_true,
        Bool.not_true, Bool.false_eq_true, Method.on_bind, addBusiness, Method.on_modify,
        on_storeDeliveries, Method.on_pure]
      refine ⟨hfaults.symm, Nat.le_of_succ_le hn, .added _ rfl ?_, Or.inl rfl⟩
      intro m hm
      rcases List.mem_map.mp hm with ⟨p, hp, rfl⟩
      rcases hids ids rfl p.1 (List.of_mem_zip hp).1 with ⟨label, k, hlt, hk, hmem, hhash⟩
      exact ⟨label, k, Nat.lt_of_succ_lt hlt, hk, hmem, hhash⟩

theorem performs_claim (deliveryId : UUID) :
    Performs (.claim deliveryId) d ((claim deliveryId).on d).2 := by
  rw [claim, Method.on_bind, Method.on_get]
  simp only [Method.on_bind, on_lookup]
  rcases hrow : d.deliveries.get deliveryId with _ | r
  · exact .of_same rfl (le_refl _) rfl rfl
  simp only
  split_ifs with hstatus
  · exact .of_same rfl (le_refl _) rfl rfl
  rw [Method.on_bind, on_uuid]
  rcases uuid5 namespaceUrl (idName ("attempt:" ++ deliveryId.str) (d.counter + 1)) with _ | attemptId
  · exact .of_same rfl (Nat.le_succ _) rfl rfl
  simp only [Method.on_bind, on_uuid]
  rcases uuid5 namespaceUrl (idName ("lease:" ++ deliveryId.str) (d.drawn.counter + 1)) with
    _ | leaseToken
  · exact .of_same rfl (by show d.counter ≤ d.counter + 1 + 1; omega) rfl rfl
  refine ⟨rfl, by show d.counter ≤ d.counter + 1 + 1; omega, .moved deliveryId r _ rfl hrow ?_ rfl,
    Or.inl rfl⟩
  -- a delivery that is claimed waits
  unfold Status.terminal
  by_contra hterminal
  refine hstatus ⟨fun h => ?_, fun h => ?_⟩ <;> rw [h] at hterminal <;> exact hterminal rfl

theorem performs_finalize (lease : LeaseView) (outcome : Str) (hfaults : d.faults = []) :
    Performs (.finalize lease outcome) d ((finalize lease outcome).on d).2 := by
  rw [finalize, Method.on_bind, Method.on_get]
  simp only [Method.on_bind, on_lookup]
  rcases hrow : d.deliveries.get lease.deliveryId with _ | r
  · exact .of_same rfl (le_refl _) rfl rfl
  simp only [hfaults, List.not_mem_nil, not_false_eq_true, and_true, if_false]
  split_ifs with hstale
  · exact .of_same rfl (le_refl _) rfl rfl
  rw [Method.on_bind, on_liftExcept]
  rcases outcomeStatus outcome with e | status
  · exact .of_same rfl (le_refl _) rfl rfl
  refine ⟨rfl, le_refl _, .moved lease.deliveryId r _ rfl hrow ?_ rfl, Or.inl rfl⟩
  have hleased : r.status = .leased := by
    by_contra hne
    exact hstale (Or.inl hne)
  rw [hleased]
  rfl

theorem performs_replay (deliveryId : UUID) (hfaults : d.faults = []) :
    Performs (.replay deliveryId) d ((replay deliveryId).on d).2 := by
  rw [replay, Method.on_bind, Method.on_get]
  simp only [Method.on_bind, on_lookup]
  rcases hrow : d.deliveries.get deliveryId with _ | r
  · exact .of_same rfl (le_refl _) rfl rfl
  simp only [hfaults, List.not_mem_nil, if_false]
  rw [Method.on_bind, on_uuid]
  rcases hid : uuid5 namespaceUrl (idName ("replay:" ++ deliveryId.str) (d.counter + 1)) with
    _ | replayId
  · exact .of_same rfl (Nat.le_succ _) rfl rfl
  refine ⟨rfl, Nat.le_succ _, .added [(replayId, replayDelivery r replayId)] rfl ?_, Or.inl rfl⟩
  intro m hm
  rw [List.mem_singleton.mp hm]
  exact ⟨_, d.counter + 1, Nat.lt_succ_self _, le_refl _, List.mem_singleton_self _, hid⟩

theorem performs_enqueueHandoff (principal : Principal) (deliveryId attemptId : UUID)
    (hfaults : d.faults = []) : Performs (.enqueueHandoff principal deliveryId attemptId) d
      ((enqueueHandoff principal deliveryId attemptId).on d).2 := by
  rw [enqueueHandoff, Method.on_bind, on_nameUuid]
  rcases hid : uuid5 namespaceUrl (handoffName deliveryId attemptId) with _ | h
  · exact .of_same rfl (le_refl _) rfl rfl
  refine ⟨rfl, le_refl _, .same rfl, Or.inr (Or.inl ⟨principal, deliveryId, attemptId, h, _, rfl,
    hid, ?_, rfl⟩)⟩
  show (enqueuedHandoff d.faults principal h deliveryId attemptId).terminal = false
  rw [hfaults]
  rfl

theorem performs_executeHandoff (h : UUID) (hfaults : d.faults = []) :
    Performs (.executeHandoff h) d ((executeHandoff h).on d).2 := by
  rw [executeHandoff, Method.on_bind, Method.on_get]
  simp only [Method.on_bind, on_lookup]
  rcases hrow : d.handoffs.get h with _ | r
  · exact .of_same rfl (le_refl _) rfl rfl
  simp only [hfaults, List.not_mem_nil, if_false]
  rcases hterminal : r.terminal with _ | _
  · exact ⟨rfl, le_refl _, .same rfl, Or.inr (Or.inr ⟨h, r, _, rfl, hrow, hterminal, rfl, rfl⟩)⟩
  · exact .of_same rfl (le_refl _) rfl rfl

theorem performs_mintDelegation (principal : Principal) (path : Str) (scopes : List Str)
    (ttl : Timedelta) : Performs (.mintDelegation principal path scopes ttl) d
      ((mintDelegation principal path scopes ttl).on d).2 := by
  unfold mintDelegation
  by_cases hscopes : ¬ scopes ⊆ principal.scopes
  · rw [if_pos hscopes]
    exact .of_same rfl (le_refl _) rfl rfl
  rw [if_neg hscopes]
  by_cases httl : ttl ≤ 0 ∨ 300000000 < ttl
  · rw [if_pos httl]
    exact .of_same rfl (le_refl _) rfl rfl
  rw [if_neg httl, Method.on_bind, on_liftExcept]
  rcases canonicalPath path with e | target
  · exact .of_same rfl (le_refl _) rfl rfl
  · simp only [on_uuid]
    exact .of_same rfl (Nat.le_succ _) rfl rfl

/-- A handoff that a call executes was not completed, and is completed then. -/
theorem Call.executed_spec {c : Call} {h : UUID} (hfaults : d.faults = [])
    (hmem : h ∈ c.executed d) : (∃ r, d.handoffs.get h = some r ∧ r.terminal = false) ∧
      ∃ r, (c.next d).handoffs.get h = some r ∧ r.terminal = true := by
  cases c with
  | executeHandoff h' =>
      rw [Call.executed] at hmem
      rcases hrow : d.handoffs.get h' with _ | r
      · rw [hrow] at hmem
        cases hmem
      · rw [hrow] at hmem
        simp only [hfaults, List.not_mem_nil, not_false_eq_true, and_true] at hmem
        split_ifs at hmem with hterminal
        · cases hmem
        · rw [List.mem_singleton.mp hmem]
          have hlive : r.terminal = false := Bool.eq_false_iff.mpr hterminal
          refine ⟨⟨r, hrow, hlive⟩, { r with
            executionCount := r.executionCount + 1, succeeded := true, terminal := true }, ?_, rfl⟩
          rw [Call.next, Call.method, Method.on_discard, Reference.executeHandoff, Method.on_bind,
            Method.on_get]
          simp only [Method.on_bind, on_lookup, hrow, hlive, Bool.not_false, if_true]
          exact (Dict.get_set _ _ _ _).trans (if_pos rfl)
  | _ => cases hmem

theorem Call.nodup_executed (c : Call) (d : Driver) : (c.executed d).Nodup := by
  cases c with
  | executeHandoff h =>
      rw [Call.executed]
      rcases d.handoffs.get h with _ | r
      · exact List.nodup_nil
      · simp only
        split_ifs
        · exact List.nodup_nil
        · exact List.nodup_singleton h
  | _ => exact List.nodup_nil

/-- What any call but a reset changes on a driver without faults. -/
theorem Call.performs (c : Call) (hfaults : d.faults = []) (hc : c ≠ .reset) :
    Performs c d (c.next d) := by
  unfold Call.next
  cases c with
  | publish principal businessKey destinations correlationId causationId commit =>
      rw [Call.method, Method.on_discard]
      exact performs_publish principal businessKey destinations correlationId causationId commit
        hfaults
  | snapshot principal tenantId =>
      rw [Call.method, Method.on_discard, Reference.snapshot, Method.on_bind, Method.on_get]
      simp only
      split_ifs <;> exact .of_same rfl (le_refl _) rfl rfl
  | claim deliveryId =>
      rw [Call.method, Method.on_discard]
      exact performs_claim deliveryId
  | finalize lease outcome =>
      rw [Call.method, Method.on_discard]
      exact performs_finalize lease outcome hfaults
  | delivery deliveryId =>
      rw [Call.method, Method.on_discard, Reference.delivery, Method.on_bind, Method.on_get]
      simp only [Method.on_bind, on_lookup]
      cases d.deliveries.get deliveryId <;> exact .of_same rfl (le_refl _) rfl rfl
  | replay deliveryId =>
      rw [Call.method, Method.on_discard]
      exact performs_replay deliveryId hfaults
  | enqueueHandoff principal deliveryId attemptId =>
      rw [Call.method, Method.on_discard]
      exact performs_enqueueHandoff principal deliveryId attemptId hfaults
  | executeHandoff h =>
      rw [Call.method, Method.on_discard]
      exact performs_executeHandoff h hfaults
  | mintDelegation principal path scopes ttl =>
      rw [Call.method, Method.on_discard]
      exact performs_mintDelegation principal path scopes ttl
  | reset => exact absurd rfl hc
  | close => exact .of_same rfl (le_refl _) rfl rfl

end Effects

/-! ## The discipline -/

/-- A call that replays terminal deliveries only, and enqueues no handoff that is completed. -/
def Call.orderly (c : Call) (d : Driver) : Bool :=
  match c with
  | .replay deliveryId => (d.deliveries.get deliveryId).all fun r => r.status.terminal
  | .enqueueHandoff _ deliveryId attemptId =>
      (uuid5 namespaceUrl (handoffName deliveryId attemptId)).all fun h =>
        (d.handoffs.get h).all fun r => !r.terminal
  | _ => true

/-- Whether each call of a sequence is orderly when it is made. -/
def orderlyFrom : History → List Call → Bool
  | _, [] => true
  | s, c :: calls => c.orderly s.driver && orderlyFrom (s.call c) calls

/-- The names a sequence of calls hashes for deliveries. -/
def namesFrom : History → List Call → List Str
  | _, [] => []
  | s, c :: calls => c.names s.driver ++ namesFrom (s.call c) calls

/-- Whether different ones of some names have different UUIDs. -/
def Distinct (names : List Str) : Prop :=
  ∀ a ∈ names, ∀ b ∈ names, ∀ id, uuid5 namespaceUrl a = some id →
    uuid5 namespaceUrl b = some id → a = b

/-- Names with different numbers are different. -/
theorem idName_inj {label label' : Str} {n m : ℕ} (h : idName label n = idName label' m) :
    n = m := by
  have hsep : ∀ k, PyChar.scalar ':' ∉ (Str.ofChars (Nat.toDigits 10 k)).reverse := by
    intro k hmem
    rw [List.mem_reverse] at hmem
    rcases List.mem_map.mp hmem with ⟨c, hc, heq⟩
    have hdigit := Loads.isDigit_toDigits k c hc
    rw [PyChar.scalar.inj heq] at hdigit
    exact absurd hdigit (by decide)
  have hreverse := congrArg List.reverse h
  simp only [idName, List.reverse_append, List.append_assoc] at hreverse
  have hdigits := (append_sep_inj (hsep n) (hsep m) hreverse).1
  have hchars : Nat.toDigits 10 n = Nat.toDigits 10 m :=
    List.map_injective_iff.mpr (fun _ _ heq => PyChar.scalar.inj heq) (List.reverse_injective hdigits)
  have hvalue := congrArg (fun cs => Nat.ofDigitChars 10 cs 0) hchars
  simpa only [Nat.ofDigitChars_ten_toDigits] using hvalue

/-- What holds of a history under the discipline. -/
structure Sound (names : List Str) (s : History) : Prop where
  faults : s.driver.faults = []
  ids : ∀ id r, s.driver.deliveries.get id = some r → ∃ label n, n ≤ s.driver.counter ∧
    idName label n ∈ names ∧ uuid5 namespaceUrl (idName label n) = some id
  completed : ∀ h ∈ s.executed, ∃ r, s.driver.handoffs.get h = some r ∧ r.terminal = true
  once : s.executed.Nodup

theorem sound_initial (names : List Str) : Sound names ⟨.initial [], []⟩ where
  faults := rfl
  ids := by
    intro id r h
    cases h
  completed := by
    intro h hmem
    cases hmem
  once := List.nodup_nil

section Step

variable {names : List Str} {s : History} {c : Call}

/-- The identifier of a new delivery is not that of a stored one. -/
theorem Sound.fresh {d' : Driver} (hs : Sound names s) (hdistinct : Distinct names)
    (hnames : ∀ name ∈ c.names s.driver, name ∈ names) {items : List (UUID × DeliveryRecord)}
    (hitems : ∀ m ∈ items, ∃ label n, s.driver.counter < n ∧ n ≤ d'.counter ∧
      idName label n ∈ c.names s.driver ∧ uuid5 namespaceUrl (idName label n) = some m.1)
    {id : UUID} {r : DeliveryRecord} (hr : s.driver.deliveries.get id = some r) :
    ∀ m ∈ items, m.1 ≠ id := by
  rintro m hm rfl
  rcases hitems m hm with ⟨label, n, hlt, -, hmem, hhash⟩
  rcases hs.ids m.1 r hr with ⟨label', n', hle, hmem', hhash'⟩
  have hname := hdistinct _ (hnames _ hmem) _ hmem' m.1 hhash hhash'
  have hn := idName_inj hname
  omega

/-- A delivery that a call does not change in place stays. -/
theorem Sound.stays (hs : Sound names s) (hdistinct : Distinct names)
    (hnames : ∀ name ∈ c.names s.driver, name ∈ names) (hc : c ≠ .reset) {id : UUID}
    {r : DeliveryRecord} (hr : s.driver.deliveries.get id = some r)
    (hkept : c.target = some id → r.status.terminal = true) :
    (c.next s.driver).deliveries.get id = some r := by
  rcases (c.performs hs.faults hc).deliveries with h | ⟨id', r', r'', hid, hr', hlive, h⟩ |
    ⟨items, h, hitems⟩
  · rw [h, hr]
  · rw [h, Dict.get_set]
    split_ifs with heq
    · -- a terminal delivery is no target
      subst heq
      rw [hr] at hr'
      cases hr'
      rw [hkept hid] at hlive
      cases hlive
    · exact hr
  · rw [h, Dict.get_update_of_ne (hs.fresh hdistinct hnames hitems hr)]
    exact hr

/-- Under the discipline every call honours the contract. -/
theorem Sound.honours (hs : Sound names s) (hdistinct : Distinct names)
    (hnames : ∀ name ∈ c.names s.driver, name ∈ names) (horderly : c.orderly s.driver = true) :
    Honours s.driver c := by
  constructor
  · rintro deliveryId rfl hok
    rcases hr : s.driver.deliveries.get deliveryId with _ | r
    · rw [Call.result, Call.method, Method.on_discard, replay, Method.on_bind, Method.on_get] at hok
      simp only [Method.on_bind, on_lookup, hr] at hok
      cases hok
    · simp only [Call.orderly, hr, Option.all_some] at horderly
      exact ⟨r, rfl, horderly⟩
  · rintro deliveryId rfl id r hr
    refine hs.stays hdistinct hnames (by simp) hr fun htarget => ?_
    cases htarget
  · rintro lease outcome rfl hstale
    rw [Call.result, Call.next, Call.method, Method.on_discard, finalize, Method.on_bind,
      Method.on_get]
    simp only [Method.on_bind, on_lookup]
    rcases hr : s.driver.deliveries.get lease.deliveryId with _ | r
    · exact ⟨⟨_, rfl⟩, rfl⟩
    · have hlost : r.status ≠ .leased ∨ r.activeLeaseToken ≠ some lease.leaseToken := by
        by_contra hheld
        rw [not_or, not_not, not_not] at hheld
        exact hstale ⟨r, hr, hheld⟩
      simp only [hs.faults, List.not_mem_nil, not_false_eq_true, and_true, if_pos hlost]
      exact ⟨⟨_, rfl⟩, rfl⟩
  · intro hc id r hr hterminal
    exact hs.stays hdistinct hnames hc hr fun _ => hterminal

/-- A call under the discipline keeps what holds of a history. -/
theorem Sound.call (hs : Sound names s) (hnames : ∀ name ∈ c.names s.driver, name ∈ names)
    (horderly : c.orderly s.driver = true) : Sound names (s.call c) := by
  by_cases hc : c = .reset
  · subst hc
    exact ⟨hs.faults, (sound_initial names).ids, (sound_initial names).completed, List.nodup_nil⟩
  have hperforms := c.performs hs.faults hc
  have hexecuted : (s.call c).executed = s.executed ++ c.executed s.driver := by
    cases c <;> first | rfl | exact absurd rfl hc
  have hdriver : (s.call c).driver = c.next s.driver := rfl
  -- a completed handoff is not enqueued again, so it stays completed
  have hcompleted : ∀ h r, s.driver.handoffs.get h = some r → r.terminal = true →
      ∃ r', (c.next s.driver).handoffs.get h = some r' ∧ r'.terminal = true := by
    intro h r hr hterminal
    rcases hperforms.handoffs with hsame | ⟨principal, deliveryId, attemptId, h', r', rfl, hhash,
      hlive, hset⟩ | ⟨h', r', r'', rfl, hr', hlive, hdone, hset⟩
    · exact ⟨r, by rw [hsame, hr], hterminal⟩
    · have hne : h ≠ h' := by
        rintro rfl
        simp only [Call.orderly, hhash, Option.all_some, hr, hterminal] at horderly
        cases horderly
      exact ⟨r, by rw [hset, Dict.get_set, if_neg hne, hr], hterminal⟩
    · have hne : h ≠ h' := by
        rintro rfl
        rw [hr] at hr'
        cases hr'
        rw [hterminal] at hlive
        cases hlive
      exact ⟨r, by rw [hset, Dict.get_set, if_neg hne, hr], hterminal⟩
  constructor
  · rw [hdriver, hperforms.faults, hs.faults]
  · intro id r hr
    rw [hdriver] at hr ⊢
    have hold : (∃ r₀, s.driver.deliveries.get id = some r₀) →
        ∃ label n, n ≤ (c.next s.driver).counter ∧ idName label n ∈ names ∧
          uuid5 namespaceUrl (idName label n) = some id := by
      rintro ⟨r₀, hr₀⟩
      rcases hs.ids id r₀ hr₀ with ⟨label, n, hle, hmem, hhash⟩
      exact ⟨label, n, hle.trans hperforms.counter, hmem, hhash⟩
    rcases hperforms.deliveries with h | ⟨id', r', r'', hid, hr', hlive, h⟩ | ⟨items, h, hitems⟩
    · rw [h] at hr
      exact hold ⟨r, hr⟩
    · rw [h, Dict.get_set] at hr
      split_ifs at hr with heq
      · exact hold ⟨r', heq ▸ hr'⟩
      · exact hold ⟨r, hr⟩
    · by_cases hnew : ∃ m ∈ items, m.1 = id
      · rcases hnew with ⟨m, hm, rfl⟩
        rcases hitems m hm with ⟨label, n, -, hle, hmem, hhash⟩
        exact ⟨label, n, hle, hnames _ hmem, hhash⟩
      · rw [h, Dict.get_update_of_ne fun m hm heq => hnew ⟨m, hm, heq⟩] at hr
        exact hold ⟨r, hr⟩
  · intro h hmem
    rw [hexecuted, List.mem_append] at hmem
    rw [hdriver]
    rcases hmem with hmem | hmem
    · rcases hs.completed h hmem with ⟨r, hr, hterminal⟩
      exact hcompleted h r hr hterminal
    · exact (Call.executed_spec hs.faults hmem).2
  · rw [hexecuted]
    refine List.nodup_append.mpr ⟨hs.once, c.nodup_executed s.driver, fun h hmem h' hmem' heq => ?_⟩
    subst heq
    rcases hs.completed h hmem with ⟨r, hr, hterminal⟩
    rcases (Call.executed_spec hs.faults hmem').1 with ⟨r', hr', hlive⟩
    rw [hr] at hr'
    cases hr'
    rw [hterminal] at hlive
    cases hlive

end Step

/-- The discipline of a whole sequence of calls. -/
structure Disciplined (calls : List Call) : Prop where
  orderly : orderlyFrom (history []) calls = true
  distinct : Distinct (namesFrom (history []) calls)

theorem history_append (before : List Call) (c : Call) :
    history (before ++ [c]) = (history before).call c := List.foldl_append ..

/-- What the discipline of a sequence says of one of its calls. -/
theorem orderlyFrom_append {s : History} {before : List Call} {c : Call} {after : List Call}
    (h : orderlyFrom s (before ++ c :: after) = true) :
    c.orderly (before.foldl History.call s).driver = true := by
  induction before generalizing s with
  | nil => exact (Bool.and_eq_true_iff.mp h).1
  | cons b before ih => exact ih (Bool.and_eq_true_iff.mp h).2

theorem mem_namesFrom_append {s : History} {before : List Call} {c : Call} {after : List Call}
    {name : Str} (h : name ∈ c.names (before.foldl History.call s).driver) :
    name ∈ namesFrom s (before ++ c :: after) := by
  induction before generalizing s with
  | nil => exact List.mem_append_left _ h
  | cons b before ih => exact List.mem_append_right _ (ih h)

/-- Up to any of its calls, a disciplined sequence is sound. -/
theorem Disciplined.sound {calls : List Call} (h : Disciplined calls) {before after : List Call}
    (hcalls : calls = before ++ after) :
    Sound (namesFrom (history []) calls) (history before) := by
  induction before using List.reverseRecOn generalizing after with
  | nil => exact sound_initial _
  | append_singleton before c ih =>
      rw [List.append_assoc, List.singleton_append] at hcalls
      rw [history_append]
      refine (ih hcalls).call (fun name hname => ?_) ?_
      · rw [hcalls]
        exact mem_namesFrom_append hname
      · exact orderlyFrom_append (hcalls ▸ h.orderly)

/-- Every sequence of calls that replays terminal deliveries only, enqueues no handoff that is
completed and hashes no two names to one UUID obeys the contract. -/
theorem reference_driver_obeys {calls : List Call} (h : Disciplined calls) : Obeys calls := by
  constructor
  · intro before c after hcalls
    refine (h.sound hcalls).honours h.distinct (fun name hname => ?_) ?_
    · rw [hcalls]
      exact mem_namesFrom_append hname
    · exact orderlyFrom_append (hcalls ▸ h.orderly)
  · intro before after hcalls
    exact (h.sound hcalls).once

namespace OneDelivery

def principal : Principal :=
  ⟨{ tenantId := 1, subjectId := "service", issuedAt := 0 }, List.nodup_nil, by decide +kernel⟩

/-- The identifier of the delivery that the first call makes. -/
def deliveryId : UUID := 0x3134819cd6115faa8f53b449fc947ecc

/-- The token of its first lease. -/
def lease : LeaseView where
  deliveryId := deliveryId
  attemptId := 0x92abe15c11f156bcb4c50c588c7d3b0d
  leaseToken := 0xeb4367597a135d3b9e0cdb51e8d4b03f
  messageId := messageId deliveryId

def handoffId : UUID := 0x1e01fbbbab1a5653bd6d387e87b0fd39

def publishing : Call := .publish principal "order" ["audit"] 7 none true

def enqueuing : Call := .enqueueHandoff principal deliveryId lease.attemptId

/-- A delivery that fails for good is replayed. -/
def replayed : List Call :=
  [publishing, .claim deliveryId, .finalize lease "terminal_failure", .replay deliveryId]

theorem reference_driver_obeys_replayed : Obeys replayed := by
  refine reference_driver_obeys ⟨by decide +kernel, ?_⟩
  have hcounter : (history [publishing, .claim deliveryId,
      .finalize lease "terminal_failure"]).driver.counter + 1 = 5 := by decide +kernel
  have hnames : namesFrom (history []) replayed =
      [idName "delivery:audit" 2, idName ("replay:" ++ deliveryId.str) 5] := by
    rw [← hcounter]
    rfl
  have hdifferent : uuid5 namespaceUrl (idName "delivery:audit" 2) ≠
      uuid5 namespaceUrl (idName ("replay:" ++ deliveryId.str) 5) := by decide +kernel
  rw [hnames]
  intro a ha b hb id hid hid'
  simp only [List.mem_cons, List.not_mem_nil, or_false] at ha hb
  rcases ha with rfl | rfl <;> rcases hb with rfl | rfl
  · rfl
  · exact absurd (hid.trans hid'.symm) hdifferent
  · exact absurd (hid'.trans hid.symm) hdifferent
  · rfl

/-- A delivery that was only published is replayed, and a handoff that is enqueued again after its
execution is executed again. -/
theorem reference_driver_breaks : ¬ Obeys [publishing, .replay deliveryId] ∧
    ¬ Obeys [enqueuing, .executeHandoff handoffId, enqueuing, .executeHandoff handoffId] := by
  constructor
  · intro h
    have haccepted : (Call.replay deliveryId).result (history [publishing]).driver = .ok () ∧
        ((history [publishing]).driver.deliveries.get deliveryId).map (·.status) =
          some .pending := by decide +kernel
    rcases (h.1 [publishing] (.replay deliveryId) [] rfl).terminal deliveryId rfl haccepted.1 with
      ⟨r, hr, hterminal⟩
    rw [hr] at haccepted
    have hpending : r.status = .pending := Option.some.inj haccepted.2
    rw [hpending] at hterminal
    cases hterminal
  · intro h
    have htwice : (history [enqueuing, .executeHandoff handoffId, enqueuing,
        .executeHandoff handoffId]).executed = [handoffId, handoffId] := by decide +kernel
    have honce := h.2 _ [] (List.append_nil _).symm
    rw [htwice] at honce
    exact (List.nodup_cons.mp honce).1 (List.mem_singleton_self _)

end OneDelivery

end Reference

end FastapiEffects
