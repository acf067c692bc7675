import FastapiEffects.Webhooks.Lifecycle

/-! # A rotation that fails half-way

`WebhookSecretService.rotate` as it works on the rows of its caller's session. The active version
is assigned before the master key is awaited and the new material is encrypted, and either may
raise anything; what was assigned by then stays in the session.
-/

namespace FastapiEffects

open Python ReadCommitted

/-- What a rotation waits for: the current master key, and the encryption under it. -/
structure KeyMaterial (ε : Type) where
  currentKey : Except ε MasterKey
  encrypt (key : MasterKey) (nonce material associated : Bytes) : Except ε Bytes

/-- The key material of a provider, and AES-GCM itself. -/
def KeyMaterial.ofProvider [AesGcm] (provider : MasterKeyProvider) : KeyMaterial PyError where
  currentKey := provider.currentKey
  encrypt key nonce material associated :=
    .ok (AesGcm.encrypt key.material nonce material associated)

/-- An exception of the service, or one that it was waiting for. -/
inductive RotateError (ε : Type) where
  | error (e : PyError)
  | raised (e : ε)

/-- The rows that a session shows, and those of before its transaction, which a flush that fails
goes back to. -/
structure SecretSession where
  rows : SecretStore
  before : SecretStore

/-- The active version, retiring. -/
def SecretVersionRow.retire (r : SecretVersionRow) (until_ : Datetime) : SecretVersionRow :=
  { r with state := .retiring, retiringUntil := some until_ }

/-- A set after a rotation. -/
def SecretSetRow.advance (r : SecretSetRow) (now : Datetime) : SecretSetRow :=
  { r with revision := r.revision + 1, updatedAt := now }

/-- What `rotate` looks at before it assigns anything: the set and its active version. -/
def rotatable (tenantId secretSetId : UUID) (expectedRevision : ℤ) (overlap : Timedelta)
    (db : SecretStore) : Except PyError (SecretSetRow × SecretVersionRow) := do
  check (0 < overlap ∧ overlap ≤ maxOverlap)
    (.configuration "Webhook secret overlap must be in (0, 30 days].")
  let set ← orRaise (db.set? tenantId secretSetId)
    (.configuration "Webhook secret set does not exist.")
  check (set.revision = expectedRevision) (.optimisticConflict "webhook_secret_set")
  let active ← orRaise ((db.versions tenantId secretSetId).find? fun r => r.state = .active)
    (.configuration "Webhook secret set has no active key.")
  return (set, active)

/-- The version that replaces the active one. -/
def SecretVersionRow.next (active : SecretVersionRow) (tenantId secretSetId : UUID)
    (key : MasterKey) (nonce ciphertext : Bytes) (now : Datetime) : SecretVersionRow where
  tenantId := tenantId
  secretSetId := secretSetId
  secretVersion := active.secretVersion + 1
  keyId := key.keyId
  nonce := nonce
  ciphertext := ciphertext
  state := .active
  createdAt := now

/-- The `flush` of a rotation. -/
def flushRotation (db : SecretStore) (retired new : SecretVersionRow) (set : SecretSetRow) :
    Except PyError SecretStore := do
  let db ← db.update (.version retired)
  let db ← db.add (.version new)
  db.update (.set set)

section Rotate

variable {ε : Type}

/-- `WebhookSecretService.rotate`. -/
def rotate (material : KeyMaterial ε) (principal : Principal) (secretSetId : UUID)
    (expectedRevision : ℤ) (overlap : Timedelta) (draw : SecretDraw) (now : Datetime)
    (s : SecretSession) : Except (RotateError ε) CreatedWebhookSecret × SecretSession :=
  match rotatable principal.tenantId secretSetId expectedRevision overlap s.rows with
  | .error e => (.error (.error e), s)
  | .ok (set, active) =>
      match Datetime.add? now overlap with
      | none =>
          -- the state is assigned before the sum is computed
          (.error (.error .overflow),
            { s with rows := s.rows.put (.version { active with state := .retiring }) })
      | some until_ =>
          let retired := { s with rows := s.rows.put (.version (active.retire until_)) }
          match material.currentKey with
          | .error e => (.error (.raised e), retired)
          | .ok key =>
              match material.encrypt key draw.nonce.toList draw.material.toList
                (associatedData principal.tenantId secretSetId (active.secretVersion + 1)) with
              | .error e => (.error (.raised e), retired)
              | .ok ciphertext =>
                  match flushRotation s.rows (active.retire until_)
                    (active.next principal.tenantId secretSetId key draw.nonce.toList ciphertext now)
                    (set.advance now) with
                  | .error e => (.error (.error e), { s with rows := s.before })
                  | .ok rows =>
                      (.ok ⟨secretSetId, active.secretVersion + 1,
                        encodePublic draw.material.toList⟩, { s with rows })

/-- What the checks let through. -/
theorem rotatable_eq_ok {tenantId secretSetId : UUID} {expectedRevision : ℤ} {overlap : Timedelta}
    {db : SecretStore} {set : SecretSetRow} {active : SecretVersionRow} :
    rotatable tenantId secretSetId expectedRevision overlap db = .ok (set, active) ↔
      (0 < overlap ∧ overlap ≤ maxOverlap) ∧ db.set? tenantId secretSetId = some set ∧
        set.revision = expectedRevision ∧
        (db.versions tenantId secretSetId).find? (fun r => r.state = .active) = some active := by
  simp only [rotatable, bind_eq_ok, check_eq_ok, orRaise_eq_ok, decide_eq_true_eq]
  constructor
  · rintro ⟨_, hoverlap, set', hset, _, hrevision, active', hactive, heq⟩
    cases heq
    exact ⟨hoverlap, hset, hrevision, hactive⟩
  · rintro ⟨hoverlap, hset, hrevision, hactive⟩
    exact ⟨(), hoverlap, set, hset, (), hrevision, active, hactive, rfl⟩

/-- A version that may be rotated is active and stored. -/
theorem rotatable_active {tenantId secretSetId : UUID} {expectedRevision : ℤ} {overlap : Timedelta}
    {db : SecretStore} {set : SecretSetRow} {active : SecretVersionRow}
    (h : rotatable tenantId secretSetId expectedRevision overlap db = .ok (set, active)) :
    SecretRow.version active ∈ db.rows ∧ active.state = .active ∧ active.tenantId = tenantId ∧
      active.secretSetId = secretSetId := by
  obtain ⟨-, -, -, hactive⟩ := rotatable_eq_ok.mp h
  obtain ⟨hmem, htenant, hset⟩ := SecretStore.mem_versions.mp (List.mem_of_find?_eq_some hactive)
  exact ⟨hmem, by simpa using List.find?_some hactive, htenant, hset⟩

/-- With a provider that answers and the cipher itself, a rotation that returns is the one of the
service. -/
theorem rotate_eq_ok [AesGcm] {provider : MasterKeyProvider} {principal : Principal}
    {secretSetId : UUID} {expectedRevision : ℤ} {overlap : Timedelta} {draw : SecretDraw}
    {now : Datetime} {s s' : SecretSession} {created : CreatedWebhookSecret} :
    rotate (.ofProvider provider) principal secretSetId expectedRevision overlap draw now s =
        (.ok created, s') ↔
      rotateSecret provider principal secretSetId expectedRevision overlap draw now s.rows =
        .ok (created, s'.rows) ∧ s'.before = s.before := by
  constructor
  · intro h
    unfold rotate at h
    split at h
    · cases h
    rename_i set active hrotatable
    obtain ⟨hoverlap, hset, hrevision, hactive⟩ := rotatable_eq_ok.mp hrotatable
    split at h
    · cases h
    rename_i until_ huntil
    dsimp only at h
    split at h
    · cases h
    rename_i key hkey
    split at h
    · cases h
    rename_i ciphertext hencrypt
    cases hencrypt
    split at h
    · cases h
    rename_i rows hflush
    cases h
    refine ⟨?_, rfl⟩
    obtain ⟨db₁, hdb₁, hflush⟩ := bind_eq_ok.mp hflush
    obtain ⟨db₂, hdb₂, hflush⟩ := bind_eq_ok.mp hflush
    simp only [rotateSecret, bind_eq_ok, check_eq_ok, orRaise_eq_ok, decide_eq_true_eq]
    exact ⟨(), hoverlap, set, hset, (), hrevision, active, hactive, until_, huntil, key, hkey, db₁,
      hdb₁, db₂, hdb₂, rows, hflush, rfl⟩
  · rintro ⟨h, hbefore⟩
    simp only [rotateSecret, bind_eq_ok, check_eq_ok, orRaise_eq_ok, decide_eq_true_eq] at h
    obtain ⟨_, hoverlap, set, hset, _, hrevision, active, hactive, until_, huntil, key, hkey, db₁,
      hdb₁, db₂, hdb₂, rows, hflush, heq⟩ := h
    have hrotatable := rotatable_eq_ok.mpr ⟨hoverlap, hset, hrevision, hactive⟩
    have hflushed : flushRotation s.rows (active.retire until_)
        (active.next principal.tenantId secretSetId key draw.nonce.toList
          (AesGcm.encrypt key.material draw.nonce.toList draw.material.toList
            (associatedData principal.tenantId secretSetId (active.secretVersion + 1))) now)
        (set.advance now) = .ok rows :=
      bind_eq_ok.mpr ⟨db₁, hdb₁, bind_eq_ok.mpr ⟨db₂, hdb₂, hflush⟩⟩
    cases heq
    unfold rotate
    rw [hrotatable]
    dsimp only
    rw [huntil]
    dsimp only [KeyMaterial.ofProvider]
    rw [hkey]
    dsimp only
    rw [hflushed]
    obtain ⟨rows', before'⟩ := s'
    cases hbefore
    rfl

/-! ## What is left behind -/

/-- A version that is stored does not change by being put back, and else it does. -/
theorem put_ne_of_mem {db : SecretStore} {r r' : SecretVersionRow} (hr : SecretRow.version r ∈ db.rows)
    (hkey : (SecretRow.version r').key = (SecretRow.version r).key) (hne : r' ≠ r) :
    db.put (.version r') ≠ db := by
  intro heq
  have hput : (db.put (.version r')).get (SecretRow.version r').key = some (.version r') :=
    Table.get_put_self db _
  rw [heq, hkey] at hput
  have hget : db.get (SecretRow.version r).key = some (.version r) := Table.mem_iff_get.mp hr
  rw [hget] at hput
  exact hne (SecretRow.version.inj (Option.some.inj hput)).symm

/-- The rows of a rotation that the schema takes. -/
structure StorableRotation (db : SecretStore) (retired new : SecretVersionRow) (set : SecretSetRow) :
    Prop where
  retired : (SecretRow.version retired).checks = true ∧ (SecretRow.version retired).fits = true
  fresh : db.get (SecretRow.version new).key = none
  new : (SecretRow.version new).checks = true ∧ (SecretRow.version new).fits = true
  set : (SecretRow.set set).checks = true ∧ (SecretRow.set set).fits = true

theorem flushRotation_ok_iff {db : SecretStore} {retired new : SecretVersionRow} {set : SecretSetRow}
    (hnext : new.secretVersion = retired.secretVersion + 1) :
    (∃ rows, flushRotation db retired new set = .ok rows) ↔ StorableRotation db retired new set := by
  have hkey : (SecretRow.version retired).key ≠ (SecretRow.version new).key := by
    intro heq
    have hversion := (SecretKey.version.inj heq).2.2
    omega
  have hfree : (db.put (.version retired)).get (SecretRow.version new).key =
      db.get (SecretRow.version new).key := by
    rw [Table.get_put]
    exact if_neg hkey
  simp only [flushRotation, bind_eq_ok, SecretStore.update_eq_ok, SecretStore.add_eq_ok]
  constructor
  · rintro ⟨rows, db₁, ⟨hchecks, hfits, rfl⟩, db₂, ⟨hfresh, hnew, hnewfits, rfl⟩, hset, hsetfits, rfl⟩
    rw [hfree] at hfresh
    exact ⟨⟨hchecks, hfits⟩, hfresh, ⟨hnew, hnewfits⟩, ⟨hset, hsetfits⟩⟩
  · rintro ⟨⟨hchecks, hfits⟩, hfresh, ⟨hnew, hnewfits⟩, ⟨hset, hsetfits⟩⟩
    exact ⟨_, _, ⟨hchecks, hfits, rfl⟩, _, ⟨hfree.trans hfresh, hnew, hnewfits, rfl⟩, hset, hsetfits,
      rfl⟩

variable {material : KeyMaterial ε} {principal : Principal} {secretSetId : UUID}
  {expectedRevision : ℤ} {overlap : Timedelta} {draw : SecretDraw} {now : Datetime}
  {s : SecretSession} {set : SecretSetRow} {active : SecretVersionRow}

/-- A rotation that gets as far as the active version leaves it retiring when the key material
fails. -/
theorem rotate_of_raised {until_ : Datetime} {e : ε}
    (hrotatable : rotatable principal.tenantId secretSetId expectedRevision overlap s.rows =
      .ok (set, active)) (huntil : Datetime.add? now overlap = some until_)
    (hraised : material.currentKey = .error e ∨ ∃ key, material.currentKey = .ok key ∧
      material.encrypt key draw.nonce.toList draw.material.toList
        (associatedData principal.tenantId secretSetId (active.secretVersion + 1)) = .error e) :
    rotate material principal secretSetId expectedRevision overlap draw now s =
      (.error (.raised e), { s with rows := s.rows.put (.version (active.retire until_)) }) := by
  unfold rotate
  rw [hrotatable]
  dsimp only
  rw [huntil]
  dsimp only
  rcases hraised with hkey | ⟨key, hkey, hencrypt⟩
  · rw [hkey]
  · rw [hkey]
    dsimp only
    rw [hencrypt]

/-- What becomes of a rotation whose key material is there. -/
theorem rotate_of_material {until_ : Datetime} {key : MasterKey} {ciphertext : Bytes}
    (hrotatable : rotatable principal.tenantId secretSetId expectedRevision overlap s.rows =
      .ok (set, active)) (huntil : Datetime.add? now overlap = some until_)
    (hkey : material.currentKey = .ok key)
    (hencrypt : material.encrypt key draw.nonce.toList draw.material.toList
      (associatedData principal.tenantId secretSetId (active.secretVersion + 1)) = .ok ciphertext) :
    (∃ created s', rotate material principal secretSetId expectedRevision overlap draw now s =
        (.ok created, s') ∧ StorableRotation s.rows (active.retire until_)
          (active.next principal.tenantId secretSetId key draw.nonce.toList ciphertext now)
          (set.advance now)) ∨
      ∃ e, rotate material principal secretSetId expectedRevision overlap draw now s =
          (.error (.error e), { s with rows := s.before }) ∧
        ¬ StorableRotation s.rows (active.retire until_)
          (active.next principal.tenantId secretSetId key draw.nonce.toList ciphertext now)
          (set.advance now) := by
  have hstorable : (∃ rows, flushRotation s.rows (active.retire until_)
      (active.next principal.tenantId secretSetId key draw.nonce.toList ciphertext now)
      (set.advance now) = .ok rows) ↔ StorableRotation s.rows (active.retire until_)
        (active.next principal.tenantId secretSetId key draw.nonce.toList ciphertext now)
        (set.advance now) := flushRotation_ok_iff rfl
  unfold rotate
  rw [hrotatable]
  dsimp only
  rw [huntil]
  dsimp only
  rw [hkey]
  dsimp only
  rw [hencrypt]
  dsimp only
  cases hflush : flushRotation s.rows (active.retire until_)
      (active.next principal.tenantId secretSetId key draw.nonce.toList ciphertext now)
      (set.advance now) with
  | ok rows => exact .inl ⟨_, _, rfl, hstorable.mp ⟨rows, hflush⟩⟩
  | error e =>
      refine .inr ⟨e, rfl, fun h => ?_⟩
      obtain ⟨rows, hrows⟩ := hstorable.mpr h
      rw [hflush] at hrows
      cases hrows

/-- A rotation that is refused before it assigns anything changes nothing. -/
theorem rotate_of_refused {e : PyError}
    (h : rotatable principal.tenantId secretSetId expectedRevision overlap s.rows = .error e) :
    rotate material principal secretSetId expectedRevision overlap draw now s =
      (.error (.error e), s) := by
  unfold rotate
  rw [h]

/-- A rotation that raises leaves the rows as they were, unless it gets as far as the active
version and then fails. -/
theorem rotate_atomic (material : KeyMaterial ε) (principal : Principal) (secretSetId : UUID)
    (expectedRevision : ℤ) (overlap : Timedelta) (draw : SecretDraw) (now : Datetime)
    (s : SecretSession) :
    (∀ e s', rotate material principal secretSetId expectedRevision overlap draw now s =
        (.error e, s') → s'.rows = s.rows) ↔
      ∀ set active, rotatable principal.tenantId secretSetId expectedRevision overlap s.rows =
          .ok (set, active) →
        ∃ until_ key ciphertext, Datetime.add? now overlap = some until_ ∧
          material.currentKey = .ok key ∧
          material.encrypt key draw.nonce.toList draw.material.toList
            (associatedData principal.tenantId secretSetId (active.secretVersion + 1)) =
              .ok ciphertext ∧
          (StorableRotation s.rows (active.retire until_)
              (active.next principal.tenantId secretSetId key draw.nonce.toList ciphertext now)
              (set.advance now) ∨
            s.before = s.rows) := by
  constructor
  · intro hatomic set active hrotatable
    obtain ⟨hmem, hstate, -, -⟩ := rotatable_active hrotatable
    have hretired : ∀ until_, s.rows.put (.version (active.retire until_)) ≠ s.rows := by
      intro until_
      refine put_ne_of_mem hmem rfl fun heq => ?_
      have hretiring : (active.retire until_).state = .retiring := rfl
      rw [heq, hstate] at hretiring
      cases hretiring
    cases huntil : Datetime.add? now overlap with
    | none =>
        have hraised : rotate material principal secretSetId expectedRevision overlap draw now s =
            (.error (.error .overflow),
              { s with rows := s.rows.put (.version { active with state := .retiring }) }) := by
          unfold rotate
          rw [hrotatable]
          dsimp only
          rw [huntil]
        refine absurd (hatomic _ _ hraised) (put_ne_of_mem hmem rfl fun heq => ?_)
        have hretiring : ({ active with state := .retiring } : SecretVersionRow).state = .retiring := rfl
        rw [heq, hstate] at hretiring
        cases hretiring
    | some until_ =>
        cases hkey : material.currentKey with
        | error e =>
            exact absurd (hatomic _ _ (rotate_of_raised hrotatable huntil (.inl hkey)))
              (hretired until_)
        | ok key =>
            cases hencrypt : material.encrypt key draw.nonce.toList draw.material.toList
                (associatedData principal.tenantId secretSetId (active.secretVersion + 1)) with
            | error e =>
                exact absurd (hatomic _ _
                  (rotate_of_raised hrotatable huntil (.inr ⟨key, hkey, hencrypt⟩))) (hretired until_)
            | ok ciphertext =>
                refine ⟨until_, key, ciphertext, rfl, rfl, hencrypt, ?_⟩
                rcases rotate_of_material hrotatable huntil hkey hencrypt with
                  ⟨_, _, -, hstorable⟩ | ⟨e, hraised, -⟩
                · exact .inl hstorable
                · exact .inr (hatomic _ _ hraised)
  · intro hcompletes e s' h
    cases hrotatable : rotatable principal.tenantId secretSetId expectedRevision overlap s.rows with
    | error e' =>
        rw [rotate_of_refused hrotatable] at h
        cases h
        rfl
    | ok found =>
        obtain ⟨set, active⟩ := found
        obtain ⟨until_, key, ciphertext, huntil, hkey, hencrypt, hstorable⟩ :=
          hcompletes set active hrotatable
        rcases rotate_of_material hrotatable huntil hkey hencrypt with
          ⟨_, _, hreturned, -⟩ | ⟨e', hraised, hunstorable⟩
        · rw [hreturned] at h
          cases h
        · rw [hraised] at h
          cases h
          exact hstorable.resolve_left hunstorable

/-- After a rotation whose key material failed the set has no active version, and every further
rotation is refused. -/
theorem rotate_after_raised {until_ : Datetime} {e : ε} (hinv : SecretsInv s.rows)
    (hrotatable : rotatable principal.tenantId secretSetId expectedRevision overlap s.rows =
      .ok (set, active)) (huntil : Datetime.add? now overlap = some until_)
    (hraised : material.currentKey = .error e ∨ ∃ key, material.currentKey = .ok key ∧
      material.encrypt key draw.nonce.toList draw.material.toList
        (associatedData principal.tenantId secretSetId (active.secretVersion + 1)) = .error e) :
    ∃ s', rotate material principal secretSetId expectedRevision overlap draw now s =
        (.error (.raised e), s') ∧
      (∀ r ∈ s'.rows.versions principal.tenantId secretSetId, r.state ≠ .active) ∧
      ∀ expectedRevision' overlap', ∃ e', rotatable principal.tenantId secretSetId
        expectedRevision' overlap' s'.rows = .error e' := by
  obtain ⟨hmem, hstate, htenant, hset⟩ := rotatable_active hrotatable
  have hnone : ∀ r ∈ SecretStore.versions (s.rows.put (.version (active.retire until_)))
      principal.tenantId secretSetId, r.state ≠ .active := by
    intro r hr hactive
    obtain ⟨hr, ht, hs⟩ := SecretStore.mem_versions.mp hr
    rcases mem_put_version.mp hr with rfl | ⟨hr, hne⟩
    · cases hactive
    · -- the active version was the only one
      have hle := hinv.highest r active hr hmem (htenant.trans ht.symm) (hset.trans hs.symm) hactive
      have hge := hinv.highest active r hmem hr (ht.trans htenant.symm) (hs.trans hset.symm) hstate
      exact hne ⟨ht.trans htenant.symm, hs.trans hset.symm, le_antisymm hge hle⟩
  refine ⟨_, rotate_of_raised hrotatable huntil hraised, hnone, ?_⟩
  intro expectedRevision' overlap'
  cases hagain : rotatable principal.tenantId secretSetId expectedRevision' overlap'
      (s.rows.put (.version (active.retire until_))) with
  | error e' => exact ⟨e', rfl⟩
  | ok found =>
      obtain ⟨hmem', hstate', htenant', hset'⟩ := rotatable_active hagain
      exact absurd hstate' (hnone _ (SecretStore.mem_versions.mpr ⟨hmem', htenant', hset'⟩))

end Rotate

/-! ### A provider that does not answer -/

section Unavailable

open Rotation

def unavailable : KeyMaterial Unit := ⟨.error (), fun _ _ _ _ => .error ()⟩

/-- A set that was created and committed. -/
def createdSession : SecretSession :=
  ⟨runSecretCalls Table.empty (calls 0), runSecretCalls Table.empty (calls 0)⟩

/-- Its only version is retiring when the rotation has raised. -/
theorem rotate_unavailable :
    ¬ ∀ e s', rotate unavailable principal 2 1 86400000000 (draw 2) 1000000 createdSession =
      (.error e, s') → s'.rows = createdSession.rows := by
  intro hatomic
  have hrows := congrArg Table.rows (hatomic (.raised ()) _ rfl)
  exact absurd hrows (by decide +kernel)

end Unavailable

end FastapiEffects
