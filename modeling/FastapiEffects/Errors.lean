import FastapiEffects.Python.Uuid

/-! # Exceptions

The exceptions the modelled code raises, each with the data it carries.
-/

namespace FastapiEffects

open Python

/-- What a modelled function may raise. -/
inductive PyError where
  /-- `FastAPIEffectsConfigurationError(message)` -/
  | configuration (message : String)
  /-- `LeaseLost(delivery_id=...)` -/
  | leaseLost (deliveryId : UUID)
  /-- `DedupeConflict(namespace=..., key=...)` -/
  | dedupeConflict (ns key : Str)
  /-- `CommandConflict()` -/
  | commandConflict
  /-- `CommandInProgress()` -/
  | commandInProgress
  /-- `NoEligibleSigningKeyError()` -/
  | noEligibleSigningKey
  /-- `OptimisticConflict(resource=...)` -/
  | optimisticConflict (resource : String)
  /-- `AuthorizationDenied(message)` and `AuthorizationExpired(message)` -/
  | authorizationDenied (message : String)
  | authorizationExpired (message : String)
  /-- `RetryableDeliveryError(...)` and `PermanentDeliveryError(...)` -/
  | retryableDelivery (code summary : String) (retryAfter : Option ℤ)
  | permanentDelivery (code summary : String)
  /-- `HTTPException(status_code=..., detail=...)` -/
  | http (status : ℕ) (detail : String)
  /-- Python's own `OverflowError`, `KeyError`, `TypeError` and `ValueError` -/
  | overflow
  | key
  | type
  | value
  /-- `sqlalchemy.exc.IntegrityError`: a constraint of the schema refused a row -/
  | integrity
  /-- `sqlalchemy.exc.DBAPIError` for a value its column cannot hold -/
  | data
deriving DecidableEq, Repr

/-- An error the relay classifies: `RetryableDeliveryError` or `PermanentDeliveryError`. -/
def PyError.isDelivery : PyError → Bool
  | .retryableDelivery .. | .permanentDelivery .. => true
  | _ => false

/-- Raise `e` unless `ok`. -/
def check (ok : Bool) (e : PyError) : Except PyError Unit :=
  if ok then .ok () else .error e

@[simp] theorem check_eq_ok {ok : Bool} {e : PyError} {u : Unit} :
    check ok e = .ok u ↔ ok = true := by
  cases ok <;> simp [check]

theorem check_eq_error {ok : Bool} {e e' : PyError} :
    check ok e = .error e' ↔ ok = false ∧ e' = e := by
  cases ok <;> simp [check, eq_comm]

/-- A computation of two parts succeeds when both do. -/
theorem bind_eq_ok {α β ε : Type} {x : Except ε α} {f : α → Except ε β} {b : β} :
    x >>= f = .ok b ↔ ∃ a, x = .ok a ∧ f a = .ok b := by
  cases x with
  | ok a => simp [bind, Except.bind]
  | error e => simp [bind, Except.bind]

/-- It raises what the first part raises, or the second one after it. -/
theorem bind_eq_error {α β ε : Type} {x : Except ε α} {f : α → Except ε β} {e : ε} :
    x >>= f = .error e ↔ x = .error e ∨ ∃ a, x = .ok a ∧ f a = .error e := by
  cases x with
  | ok a => simp [bind, Except.bind]
  | error e' => simp [bind, Except.bind]

theorem map_eq_ok {α β ε : Type} {x : Except ε α} {f : α → β} {b : β} :
    x.map f = .ok b ↔ ∃ a, x = .ok a ∧ f a = b := by
  cases x with
  | ok a => simp [Except.map]
  | error e => simp [Except.map]

theorem exists_eq_ok {α ε : Type} {x : Except ε α} (h : x.isOk = true) : ∃ a, x = .ok a := by
  cases x with
  | ok a => exact ⟨a, rfl⟩
  | error e => cases h

/-- An optional result, `e` when there is none. -/
def orRaise {α : Type} (x : Option α) (e : PyError) : Except PyError α :=
  match x with
  | some a => .ok a
  | none => .error e

@[simp] theorem orRaise_eq_ok {α : Type} {x : Option α} {e : PyError} {a : α} :
    orRaise x e = .ok a ↔ x = some a := by
  cases x <;> simp [orRaise]

theorem orRaise_eq_error {α : Type} {x : Option α} {e e' : PyError} :
    orRaise x e = .error e' ↔ x = none ∧ e' = e := by
  cases x <;> simp [orRaise, eq_comm]

/-- What a loop that raises or returns makes of its items. -/
theorem mem_of_mapM {α β : Type} {f : α → Except PyError β} {xs : List α} {ys : List β}
    (h : xs.mapM f = .ok ys) : ∀ y ∈ ys, ∃ x ∈ xs, f x = .ok y := by
  induction xs generalizing ys with
  | nil =>
      cases h
      simp
  | cons x xs ih =>
      rw [List.mapM_cons] at h
      obtain ⟨y, hy, hrest⟩ := bind_eq_ok.mp h
      obtain ⟨ys', hys', hcons⟩ := bind_eq_ok.mp hrest
      cases hcons
      rintro z hz
      rcases List.mem_cons.mp hz with rfl | hz
      · exact ⟨x, List.mem_cons_self, hy⟩
      · obtain ⟨x', hx', hf⟩ := ih hys' z hz
        exact ⟨x', List.mem_cons_of_mem _ hx', hf⟩

/-- A loop over items of which each is checked by itself. -/
theorem mapM_eq_ok_iff {α β : Type} {f : α → Except PyError β} {g : α → β} {p : α → Prop}
    (hf : ∀ x y, f x = .ok y ↔ p x ∧ y = g x) {xs : List α} {ys : List β} :
    xs.mapM f = .ok ys ↔ (∀ x ∈ xs, p x) ∧ ys = xs.map g := by
  induction xs generalizing ys with
  | nil =>
      simp only [List.mapM_nil, List.not_mem_nil, false_imp_iff, implies_true, true_and, List.map_nil]
      exact ⟨fun h => (Except.ok.inj h).symm, fun h => congrArg Except.ok h.symm⟩
  | cons x xs ih =>
      simp only [List.mapM_cons, bind_eq_ok, hf, ih, List.forall_mem_cons, List.map_cons]
      constructor
      · rintro ⟨_, ⟨hx, rfl⟩, _, ⟨hxs, rfl⟩, heq⟩
        cases heq
        exact ⟨⟨hx, hxs⟩, rfl⟩
      · rintro ⟨⟨hx, hxs⟩, rfl⟩
        exact ⟨_, ⟨hx, rfl⟩, _, ⟨hxs, rfl⟩, rfl⟩

/-- The results of a loop have the keys of its items. -/
theorem map_of_mapM {α β κ : Type} {f : α → Except PyError β} {key : α → κ} {key' : β → κ}
    {xs : List α} {ys : List β} (h : xs.mapM f = .ok ys) (hf : ∀ x y, f x = .ok y → key' y = key x) :
    ys.map key' = xs.map key := by
  induction xs generalizing ys with
  | nil =>
      cases h
      rfl
  | cons x xs ih =>
      rw [List.mapM_cons] at h
      obtain ⟨y, hy, hrest⟩ := bind_eq_ok.mp h
      obtain ⟨ys', hys', hcons⟩ := bind_eq_ok.mp hrest
      cases hcons
      rw [List.map_cons, List.map_cons, hf x y hy, ih hys']

end FastapiEffects
