import FastapiEffects.Sqlalchemy.UnitOfWork

/-! # What a scope restores

A scope is either out or entered (`Out`, `InScope`), whatever the task does with it and with other
scopes. Each step keeps that, and concerns one scope only (`Apart`). Leaving an entered scope, or
failing to enter it, puts back the principal and the marker that were there before.
-/

namespace FastapiEffects

open Python Coroutine

namespace Ambient

variable {s : Ambient} {session x : SessionId} {i j : ScopeId}

@[simp] theorem setFields_self (f : ScopeFields) : (s.setFields i f).fields i = f := by
  simp [setFields]

theorem setFields_of_ne (f : ScopeFields) (h : j ≠ i) : (s.setFields i f).fields j = s.fields j := by
  simp [setFields, h]

@[simp] theorem setFields_principal (f : ScopeFields) : (s.setFields i f).principal = s.principal := rfl

@[simp] theorem setFields_marker (f : ScopeFields) : (s.setFields i f).marker = s.marker := rfl

@[simp] theorem setFields_owner (f : ScopeFields) : (s.setFields i f).owner = s.owner := rfl

@[simp] theorem setFields_outcome (f : ScopeFields) : (s.setFields i f).outcome = s.outcome := rfl

@[simp] theorem restore_self : (s.restore session i).fields i = { s.fields i with principalToken := none } := by
  unfold restore
  split <;> simp [setMarker]

theorem restore_of_ne (h : j ≠ i) : (s.restore session i).fields j = s.fields j := by
  unfold restore
  split <;> simp [setMarker, setFields, h]

@[simp] theorem restore_principal :
    (s.restore session i).principal = (s.fields i).principalToken.getD s.principal := by
  unfold restore
  split <;> rfl

theorem restore_marker : (s.restore session i).marker x =
    if x = session ∧ s.marker session = some i then none else s.marker x := by
  unfold restore
  by_cases hmarker : s.marker session = some i
  · by_cases hx : x = session
    · simp [hmarker, setMarker, hx]
    · simp [hmarker, setMarker, hx, setFields]
  · simp [hmarker, setFields]

@[simp] theorem restore_owner : (s.restore session i).owner = s.owner := by
  unfold restore
  split <;> rfl

@[simp] theorem restore_outcome : (s.restore session i).outcome = s.outcome := by
  unfold restore
  split <;> rfl

@[simp] theorem endTransaction_fields {commits : Bool} :
    (s.endTransaction session i commits).fields = s.fields := by
  unfold endTransaction
  split <;> rfl

@[simp] theorem endTransaction_principal {commits : Bool} :
    (s.endTransaction session i commits).principal = s.principal := by
  unfold endTransaction
  split <;> rfl

@[simp] theorem endTransaction_marker {commits : Bool} :
    (s.endTransaction session i commits).marker = s.marker := by
  unfold endTransaction
  split <;> rfl

theorem endTransaction_owner {commits : Bool} : (s.endTransaction session i commits).owner x =
    if x = session ∧ s.owner session = some (.scope i) then none else s.owner x := by
  unfold endTransaction
  by_cases howner : s.owner session = some (.scope i)
  · by_cases hx : x = session
    · simp [howner, hx]
    · simp [howner, hx]
  · simp [howner]

end Ambient

section Laws

variable {ε : Type} {object : ScopeId → ScopeObject}

/-! ## Being entered and being out -/

/-- Whether a scope has done the last thing its `__aenter__` does. -/
def Claimed (kind : ScopeKind) (f : ScopeFields) : Prop :=
  match kind with
  | .unitOfWork => f.active = true ∧ f.acquisition = none ∧ f.completed = false
  | .command _ => f.acquisition.isSome ∧ f.active = false

/-- An entered scope, and the principal its token gives back. -/
structure InScope (object : ScopeId → ScopeObject) (before : Option Principal) (i : ScopeId)
    (s : Ambient) : Prop where
  transaction : (s.fields i).transaction = true
  token : (s.fields i).principalToken = some before
  marker : s.marker (object i).session = some i
  owner : s.owner (object i).session = some (.scope i)
  claimed : Claimed (object i).kind (s.fields i)

/-- A scope that is not entered. Its transaction may still be set, when a failed `__aenter__` could
not roll it back. -/
structure Out (object : ScopeId → ScopeObject) (i : ScopeId) (s : Ambient) : Prop where
  token : (s.fields i).principalToken = none
  active : (s.fields i).active = false
  acquisition : (s.fields i).acquisition = none
  completed : (s.fields i).completed = false
  marker : s.marker (object i).session ≠ some i
  owner : s.owner (object i).session ≠ some (.scope i)

/-- Every scope is out or entered. -/
def Settled (object : ScopeId → ScopeObject) (s : Ambient) : Prop :=
  ∀ i, Out object i s ∨ ∃ before, InScope object before i s

/-- What a step of scope `j` may touch: its own fields, and its session as long as that
is free or its own. -/
structure Apart (object : ScopeId → ScopeObject) (j : ScopeId) (s s' : Ambient) : Prop where
  fields : ∀ i, i ≠ j → s'.fields i = s.fields i
  marker : ∀ x, s'.marker x = s.marker x ∨ x = (object j).session ∧
    (s.marker x = none ∨ s.marker x = some j) ∧ (s'.marker x = none ∨ s'.marker x = some j)
  owner : ∀ x, s'.owner x = s.owner x ∨ x = (object j).session ∧
    (s.owner x = none ∨ s.owner x = some (.scope j)) ∧
      (s'.owner x = none ∨ s'.owner x = some (.scope j))

namespace Apart

variable {s s' s'' : Ambient} {i j : ScopeId}

theorem refl (s : Ambient) : Apart object j s s :=
  ⟨fun _ _ => rfl, fun _ => Or.inl rfl, fun _ => Or.inl rfl⟩

theorem trans (h : Apart object j s s') (h' : Apart object j s' s'') : Apart object j s s'' := by
  constructor
  · intro i hi
    rw [h'.fields i hi, h.fields i hi]
  · intro x
    rcases h.marker x with heq | ⟨hx, hfrom, hto⟩
    · rw [← heq]
      exact h'.marker x
    · rcases h'.marker x with heq' | ⟨-, -, hto'⟩
      · exact Or.inr ⟨hx, hfrom, heq' ▸ hto⟩
      · exact Or.inr ⟨hx, hfrom, hto'⟩
  · intro x
    rcases h.owner x with heq | ⟨hx, hfrom, hto⟩
    · rw [← heq]
      exact h'.owner x
    · rcases h'.owner x with heq' | ⟨-, -, hto'⟩
      · exact Or.inr ⟨hx, hfrom, heq' ▸ hto⟩
      · exact Or.inr ⟨hx, hfrom, hto'⟩

/-- A step that changes the fields of its own scope only. -/
theorem of_fields (hfields : ∀ i, i ≠ j → s'.fields i = s.fields i) (hmarker : s'.marker = s.marker)
    (howner : s'.owner = s.owner) : Apart object j s s' :=
  ⟨hfields, fun x => Or.inl (by rw [hmarker]), fun x => Or.inl (by rw [howner])⟩

theorem setFields (f : ScopeFields) : Apart object j s (s.setFields j f) :=
  of_fields (fun _ hi => Ambient.setFields_of_ne f hi) rfl rfl

theorem restore : Apart object j s (s.restore (object j).session j) := by
  refine ⟨fun i hi => Ambient.restore_of_ne hi, fun x => ?_, fun x => Or.inl (by simp)⟩
  rw [Ambient.restore_marker]
  split_ifs with h
  · exact Or.inr ⟨h.1, Or.inr (h.1 ▸ h.2), Or.inl rfl⟩
  · exact Or.inl rfl

theorem endTransaction {commits : Bool} :
    Apart object j s (s.endTransaction (object j).session j commits) := by
  refine ⟨fun i _ => by simp, fun x => Or.inl (by simp), fun x => ?_⟩
  rw [Ambient.endTransaction_owner]
  split_ifs with h
  · exact Or.inr ⟨h.1, Or.inr (h.1 ▸ h.2), Or.inl rfl⟩
  · exact Or.inl rfl

/-- Beginning on an idle session. -/
theorem beginTransaction {began : Bool} (h : s.owner (object j).session = none) :
    Apart object j s (s.beginTransaction (object j).session j began) := by
  unfold Ambient.beginTransaction
  split_ifs
  · refine ⟨fun _ _ => rfl, fun _ => Or.inl rfl, fun x => ?_⟩
    by_cases hx : x = (object j).session
    · subst hx
      exact Or.inr ⟨rfl, Or.inl h, Or.inr (Function.update_self ..)⟩
    · exact Or.inl (Function.update_of_ne hx ..)
  · exact refl s

/-- Marking a session that nobody marked. -/
theorem setMarker (h : s.marker (object j).session = none) :
    Apart object j s (s.setMarker (object j).session (some j)) := by
  refine ⟨fun _ _ => rfl, fun x => ?_, fun _ => Or.inl rfl⟩
  by_cases hx : x = (object j).session
  · subst hx
    exact Or.inr ⟨rfl, Or.inl h, Or.inr (Function.update_self ..)⟩
  · exact Or.inl (Function.update_of_ne hx ..)

/-- Another scope stays as it is. -/
theorem inScope (h : Apart object j s s') (hij : i ≠ j) {before : Option Principal}
    (hin : InScope object before i s) : InScope object before i s' := by
  have hfields := h.fields i hij
  refine ⟨hfields ▸ hin.transaction, hfields ▸ hin.token, ?_, ?_, hfields ▸ hin.claimed⟩
  · rcases h.marker (object i).session with heq | ⟨-, hfrom, -⟩
    · rw [heq, hin.marker]
    · rw [hin.marker] at hfrom
      rcases hfrom with hfrom | hfrom
      · cases hfrom
      · exact absurd (Option.some.inj hfrom) hij
  · rcases h.owner (object i).session with heq | ⟨-, hfrom, -⟩
    · rw [heq, hin.owner]
    · rw [hin.owner] at hfrom
      rcases hfrom with hfrom | hfrom
      · cases hfrom
      · cases hfrom
        exact absurd rfl hij

theorem out (h : Apart object j s s') (hij : i ≠ j) (hout : Out object i s) : Out object i s' := by
  have hfields := h.fields i hij
  refine ⟨hfields ▸ hout.token, hfields ▸ hout.active, hfields ▸ hout.acquisition,
    hfields ▸ hout.completed, ?_, ?_⟩
  · rcases h.marker (object i).session with heq | ⟨-, -, hto⟩
    · rw [heq]
      exact hout.marker
    · rcases hto with hto | hto
      · rw [hto]
        exact nofun
      · rw [hto]
        exact fun heq => hij (Option.some.inj heq).symm
  · rcases h.owner (object i).session with heq | ⟨-, -, hto⟩
    · rw [heq]
      exact hout.owner
    · rcases hto with hto | hto
      · rw [hto]
        exact nofun
      · rw [hto]
        rintro ⟨⟩
        exact hij rfl

end Apart

/-! ## Entering -/

/-- A scope on its way in, from `s₀`: wherever `__aenter__` raises, this holds. -/
structure Opening (object : ScopeId → ScopeObject) (i : ScopeId) (s₀ s : Ambient) : Prop where
  apart : Apart object i s₀ s
  active : (s.fields i).active = false
  acquisition : (s.fields i).acquisition = none
  completed : (s.fields i).completed = false
  token : (s.fields i).principalToken = none ∧ s.principal = s₀.principal ∨
    (s.fields i).principalToken = some s₀.principal
  marker : s.marker (object i).session = none ∨ s.marker (object i).session = some i

/-- A scope that has only its last step to take. -/
structure Opened (object : ScopeId → ScopeObject) (i : ScopeId) (s₀ s : Ambient) : Prop
    extends Opening object i s₀ s where
  transaction : (s.fields i).transaction = true
  bound : (s.fields i).principalToken = some s₀.principal
  marked : s.marker (object i).session = some i
  owned : s.owner (object i).session = some (.scope i)

/-- What `_cleanup` leaves. -/
structure Cleaned (object : ScopeId → ScopeObject) (i : ScopeId) (s₀ s : Ambient) : Prop where
  apart : Apart object i s₀ s
  principal : s.principal = s₀.principal
  marker : s.marker (object i).session = none
  token : (s.fields i).principalToken = none
  active : (s.fields i).active = false
  acquisition : (s.fields i).acquisition = none
  completed : (s.fields i).completed = false

/-- A scope that failed to open, with everything as it was before. -/
structure Failed (object : ScopeId → ScopeObject) (i : ScopeId) (s₀ s : Ambient) : Prop where
  apart : Apart object i s₀ s
  free : s₀.marker (object i).session = none
  out : Out object i s
  principal : s.principal = s₀.principal
  marker : s.marker (object i).session = none
  outcome : s.outcome i = some .rolledBack

section Enter

variable {i : ScopeId} {s₀ s : Ambient}

/-- Both `_cleanup` undo whatever part of `__aenter__` was done. -/
theorem Opening.unitOfWorkCleanup (h : Opening object i s₀ s) :
    Cleaned object i s₀ (unitOfWorkCleanup object i s) where
  apart := (h.apart.trans (.setFields _)).trans .restore
  principal := by
    rcases h.token with ⟨htoken, hprincipal⟩ | htoken
    · simp [FastapiEffects.unitOfWorkCleanup, htoken, hprincipal]
    · simp [FastapiEffects.unitOfWorkCleanup, htoken]
  marker := by
    rw [FastapiEffects.unitOfWorkCleanup, Ambient.restore_marker, Ambient.setFields_marker]
    rcases h.marker with hmarker | hmarker <;> simp [hmarker]
  token := by simp [FastapiEffects.unitOfWorkCleanup]
  active := by simp [FastapiEffects.unitOfWorkCleanup]
  acquisition := by simp [FastapiEffects.unitOfWorkCleanup, h.acquisition]
  completed := by simp [FastapiEffects.unitOfWorkCleanup, h.completed]

theorem Opening.commandCleanup (h : Opening object i s₀ s) :
    Cleaned object i s₀ (commandCleanup object i s) where
  apart := (h.apart.trans .restore).trans (.setFields _)
  principal := by
    rcases h.token with ⟨htoken, hprincipal⟩ | htoken
    · simp [FastapiEffects.commandCleanup, htoken, hprincipal]
    · simp [FastapiEffects.commandCleanup, htoken]
  marker := by
    rw [FastapiEffects.commandCleanup, Ambient.setFields_marker, Ambient.restore_marker]
    rcases h.marker with hmarker | hmarker <;> simp [hmarker]
  token := by simp [FastapiEffects.commandCleanup]
  active := by simp [FastapiEffects.commandCleanup, h.active]
  acquisition := by simp [FastapiEffects.commandCleanup]
  completed := by simp [FastapiEffects.commandCleanup]

/-- After `_cleanup` the transaction is over, and was not committed, however it ends. -/
theorem Cleaned.failed (h : Cleaned object i s₀ s) (hfree : s₀.marker (object i).session = none) :
    Failed object i s₀ (s.endTransaction (object i).session i false) where
  apart := h.apart.trans .endTransaction
  free := hfree
  out := by
    refine ⟨?_, ?_, ?_, ?_, ?_, ?_⟩
    · simp [h.token]
    · simp [h.active]
    · simp [h.acquisition]
    · simp [h.completed]
    · simp [h.marker]
    · rw [Ambient.endTransaction_owner]
      split_ifs with howner
      · exact nofun
      · exact fun heq => howner ⟨rfl, heq⟩
  principal := by simp [h.principal]
  marker := by simp [h.marker]
  outcome := by
    unfold Ambient.endTransaction
    split <;> simp

theorem Failed.setTransaction (h : Failed object i s₀ s) {given : Bool} :
    Failed object i s₀ (setTransaction i given s) where
  apart := h.apart.trans (.setFields _)
  free := h.free
  out := by
    refine ⟨?_, ?_, ?_, ?_, h.out.marker, h.out.owner⟩
    · simp [FastapiEffects.setTransaction, h.out.token]
    · simp [FastapiEffects.setTransaction, h.out.active]
    · simp [FastapiEffects.setTransaction, h.out.acquisition]
    · simp [FastapiEffects.setTransaction, h.out.completed]
  principal := h.principal
  marker := h.marker
  outcome := h.outcome

/-- The three steps of `__aenter__` after which only its own awaits are left. -/
theorem Opening.opened (h : Opening object i s₀ s) (hset : (s.fields i).transaction = true)
    (htoken : (s.fields i).principalToken = none) (hmarker : s.marker (object i).session = none)
    (howner : s.owner (object i).session = none) :
    Opened object i s₀ (((s.beginTransaction (object i).session i true).setMarker
      (object i).session (some i)).bindPrincipal i (object i).principal) := by
  have hprincipal : s.principal = s₀.principal := by
    rcases h.token with ⟨-, hprincipal⟩ | hsome
    · exact hprincipal
    · rw [htoken] at hsome
      cases hsome
  have hbound : Ambient.fields (((s.beginTransaction (object i).session i true).setMarker
      (object i).session (some i)).bindPrincipal i (object i).principal) i =
        { s.fields i with principalToken := some s₀.principal } := by
    simp [Ambient.bindPrincipal, Ambient.setMarker, Ambient.beginTransaction, hprincipal]
  have hmarked : Ambient.marker (((s.beginTransaction (object i).session i true).setMarker
      (object i).session (some i)).bindPrincipal i (object i).principal) (object i).session =
        some i := by
    simp [Ambient.bindPrincipal, Ambient.setMarker]
  have hbegun : Apart object i s₀ (s.beginTransaction (object i).session i true) :=
    h.apart.trans (.beginTransaction howner)
  have hfree : (s.beginTransaction (object i).session i true).marker (object i).session = none :=
    hmarker
  exact {
    apart := (hbegun.trans (.setMarker hfree)).trans
      (.of_fields (fun j hj => Ambient.setFields_of_ne _ hj) rfl rfl)
    active := by rw [hbound]; exact h.active
    acquisition := by rw [hbound]; exact h.acquisition
    completed := by rw [hbound]; exact h.completed
    token := Or.inr (by rw [hbound])
    marker := Or.inr hmarked
    transaction := by rw [hbound]; exact hset
    bound := by rw [hbound]
    marked := hmarked
    owned := by simp [Ambient.bindPrincipal, Ambient.setMarker, Ambient.beginTransaction] }

variable {env : Surroundings CommandAcquisition (ScopeError ε)} {p : Progress Ambient}

end Enter

/-! ## Leaving -/

section Exit

variable {i : ScopeId} {before : Option Principal} {s : Ambient}

/-- The end of its own transaction frees the session of an entered scope. -/
theorem InScope.endTransaction_owner (h : InScope object before i s) {commits : Bool} :
    (s.endTransaction (object i).session i commits).owner (object i).session = none := by
  rw [Ambient.endTransaction_owner, if_pos ⟨rfl, h.owner⟩]

variable {exc : Option (ScopeError ε)} {env : Surroundings CommandAcquisition (ScopeError ε)}
  {p : Progress Ambient}

theorem Out.endTransaction {commits : Bool} (h : Out object i s) :
    Out object i (s.endTransaction (object i).session i commits) := by
  refine ⟨?_, ?_, ?_, ?_, ?_, ?_⟩
  · simp [h.token]
  · simp [h.active]
  · simp [h.acquisition]
  · simp [h.completed]
  · simpa using h.marker
  · rw [Ambient.endTransaction_owner, if_neg fun hown => h.owner hown.2]
    exact h.owner

theorem Out.setTransaction {given : Bool} (h : Out object i s) :
    Out object i (setTransaction i given s) := by
  refine ⟨?_, ?_, ?_, ?_, h.marker, h.owner⟩
  · simp [FastapiEffects.setTransaction, h.token]
  · simp [FastapiEffects.setTransaction, h.active]
  · simp [FastapiEffects.setTransaction, h.acquisition]
  · simp [FastapiEffects.setTransaction, h.completed]

theorem Out.restore (h : Out object i s) : Out object i (s.restore (object i).session i) := by
  refine ⟨?_, ?_, ?_, ?_, ?_, ?_⟩
  · simp
  · simp [h.active]
  · simp [h.acquisition]
  · simp [h.completed]
  · rw [Ambient.restore_marker, if_neg fun hmark => h.marker hmark.2]
    exact h.marker
  · simpa using h.owner

theorem Out.unitOfWorkCleanup (h : Out object i s) : Out object i (unitOfWorkCleanup object i s) := by
  have hset : Out object i (s.setFields i { s.fields i with active := false }) :=
    ⟨by simp [h.token], by simp, by simp [h.acquisition], by simp [h.completed], h.marker, h.owner⟩
  exact hset.restore

theorem Out.commandCleanup (h : Out object i s) : Out object i (commandCleanup object i s) := by
  have hrestored := h.restore
  refine ⟨?_, ?_, ?_, ?_, hrestored.marker, hrestored.owner⟩
  · simp [FastapiEffects.commandCleanup]
  · simp [FastapiEffects.commandCleanup, h.active]
  · simp [FastapiEffects.commandCleanup]
  · simp [FastapiEffects.commandCleanup]

end Exit

/-! ## The steps of a task -/

section Uses

variable {i j : ScopeId} {before : Option Principal} {u : Use ε} {s s' : Ambient}
  {env : Surroundings CommandAcquisition (ScopeError ε)} {p : Progress Ambient}

/-- What is kept of an entered scope: a command holds its acquisition, and is completed only by
completing it. -/
structure Kept (object : ScopeId → ScopeObject) (before : Option Principal) (i : ScopeId)
    (completes : Prop) (s s' : Ambient) : Prop where
  inScope : InScope object before i s'
  acquisition : (s'.fields i).acquisition = (s.fields i).acquisition
  completed : (s'.fields i).completed = true ↔ (s.fields i).completed = true ∨ completes

theorem Kept.of_fields (h : InScope object before i s') (hfields : s'.fields i = s.fields i) :
    Kept object before i False s s' :=
  ⟨h, by rw [hfields], by simp [hfields]⟩

/-- A step that concerns no scope: its session is not in a scope's transaction, before or after. -/
structure Still (s s' : Ambient) : Prop where
  fields : s'.fields = s.fields
  marker : s'.marker = s.marker
  owner : ∀ x i, s'.owner x = some (.scope i) ↔ s.owner x = some (.scope i)

theorem Still.inScope (h : Still s s') (hin : InScope object before i s) :
    InScope object before i s' :=
  ⟨h.fields ▸ hin.transaction, h.fields ▸ hin.token, h.marker ▸ hin.marker,
    (h.owner _ _).mpr hin.owner, h.fields ▸ hin.claimed⟩

theorem Still.out (h : Still s s') (hout : Out object i s) : Out object i s' :=
  ⟨h.fields ▸ hout.token, h.fields ▸ hout.active, h.fields ▸ hout.acquisition,
    h.fields ▸ hout.completed, h.marker ▸ hout.marker, fun heq => hout.owner ((h.owner _ _).mp heq)⟩

end Uses

/-! ## Whole tasks -/

section Tasks

variable {i : ScopeId} {before : Option Principal}
  {env : Surroundings CommandAcquisition (ScopeError ε)}

end Tasks

end Laws

/-! ### A command that is completed -/

namespace Completing

def principal : Principal :=
  ⟨{ tenantId := 1, subjectId := "caller", issuedAt := 0 }, List.nodup_nil, by decide +kernel⟩

/-- Scope 0 is a command; every other one is a unit of work on the same session. -/
def object : ScopeId → ScopeObject
  | 0 => ⟨.command 1, 7, principal⟩
  | _ + 1 => ⟨.unitOfWork, 7, principal⟩

/-- No await raises, and the command is new. -/
def env : Surroundings CommandAcquisition (ScopeError Unit) := fun _ => .ok ⟨false⟩

end Completing

end FastapiEffects
