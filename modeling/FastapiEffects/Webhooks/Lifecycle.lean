import FastapiEffects.Webhooks.Secrets

/-! # The lives of secret versions

What every sequence of `create`, `rotate` and `revoke` keeps: one active version at most,
which is the highest, and versions that only ever get less eligible.
-/

namespace FastapiEffects

open Python ReadCommitted

/-! ## What a call does -/

/-- A new secret set. -/
structure Creates (set : SecretSetRow) (new : SecretVersionRow) (db db' : SecretStore) : Prop where
  fresh : db.get (.set new.tenantId new.secretSetId) = none
  home : set.tenantId = new.tenantId ∧ set.secretSetId = new.secretSetId
  first : set.revision = 1 ∧ new.secretVersion = 1
  result : db' = (db.put (.set set)).put (.version new)

/-- A rotation. -/
structure Replaces (set : SecretSetRow) (active new : SecretVersionRow) (expectedRevision : ℤ)
    (until_ now : Datetime) (db db' : SecretStore) : Prop where
  stored : db.set? new.tenantId new.secretSetId = some set
  revision : set.revision = expectedRevision
  member : active ∈ db.versions new.tenantId new.secretSetId
  state : active.state = .active
  next : new.secretVersion = active.secretVersion + 1
  result : db' = ((db.put (.version { active with state := .retiring, retiringUntil := some until_ })).put
    (.version new)).put (.set { set with revision := set.revision + 1, updatedAt := now })

/-- A revocation. -/
structure Revokes (set : SecretSetRow) (row : SecretVersionRow) (expectedRevision : ℤ)
    (now : Datetime) (db db' : SecretStore) : Prop where
  stored : db.set? row.tenantId row.secretSetId = some set
  revision : set.revision = expectedRevision
  member : SecretRow.version row ∈ db.rows
  result : db' = (db.put (.version
    { row with state := .revoked, retiringUntil := none, revokedAt := some now })).put
      (.set { set with revision := set.revision + 1, updatedAt := now })

theorem set?_eq_some {db : SecretStore} {tenantId secretSetId : UUID} {set : SecretSetRow}
    (h : db.set? tenantId secretSetId = some set) :
    db.get (.set tenantId secretSetId) = some (.set set) ∧ set.tenantId = tenantId ∧
      set.secretSetId = secretSetId := by
  obtain ⟨row, hrow, hset⟩ := Option.bind_eq_some_iff.mp h
  cases row with
  | version r => cases hset
  | set r =>
      cases hset
      have hkey := Table.key_of_get hrow
      cases hkey
      exact ⟨hrow, rfl, rfl⟩

section Calls

variable [AesGcm]

theorem createSecret_cases {provider : MasterKeyProvider} {principal : Principal} {secretSetId : UUID}
    {draw : SecretDraw} {now : Datetime} {db db' : SecretStore} {created : CreatedWebhookSecret}
    (h : createSecret provider principal secretSetId draw now db = .ok (created, db')) :
    ∃ set new, new.tenantId = principal.tenantId ∧ new.secretSetId = secretSetId ∧
      new.state = .active ∧ created.version = new.secretVersion ∧ Creates set new db db' := by
  simp only [createSecret, bind_eq_ok, SecretStore.add_eq_ok] at h
  obtain ⟨key, -, db₁, ⟨hfresh, -, -, rfl⟩, db₂, ⟨-, -, -, rfl⟩, heq⟩ := h
  cases heq
  exact ⟨_, newVersion key principal.tenantId secretSetId 1 draw now, rfl, rfl, rfl, rfl, hfresh,
    ⟨rfl, rfl⟩, ⟨rfl, rfl⟩, rfl⟩

theorem rotateSecret_cases {provider : MasterKeyProvider} {principal : Principal} {secretSetId : UUID}
    {expectedRevision : ℤ} {overlap : Timedelta} {draw : SecretDraw} {now : Datetime}
    {db db' : SecretStore} {created : CreatedWebhookSecret}
    (h : rotateSecret provider principal secretSetId expectedRevision overlap draw now db =
      .ok (created, db')) :
    ∃ set active new until_, new.tenantId = principal.tenantId ∧ new.secretSetId = secretSetId ∧
      new.state = .active ∧ created.version = new.secretVersion ∧
      Replaces set active new expectedRevision until_ now db db' := by
  simp only [rotateSecret, bind_eq_ok, check_eq_ok, orRaise_eq_ok, decide_eq_true_eq,
    SecretStore.add_eq_ok, SecretStore.update_eq_ok] at h
  obtain ⟨-, -, set, hset, -, hrevision, active, hactive, until_, -, key, -, db₁, ⟨-, -, rfl⟩, db₂,
    ⟨-, -, -, rfl⟩, db₃, ⟨-, -, rfl⟩, heq⟩ := h
  cases heq
  exact ⟨set, active, _, until_, rfl, rfl, rfl, rfl, hset, hrevision,
    List.mem_of_find?_eq_some hactive, by simpa using List.find?_some hactive, rfl, rfl⟩

end Calls

theorem revokeSecret_cases {principal : Principal} {secretSetId : UUID} {version expectedRevision : ℤ}
    {now : Datetime} {db db' : SecretStore}
    (h : revokeSecret principal secretSetId version expectedRevision now db = .ok db') :
    ∃ set row, row.tenantId = principal.tenantId ∧ row.secretSetId = secretSetId ∧
      row.secretVersion = version ∧ Revokes set row expectedRevision now db db' := by
  simp only [revokeSecret, bind_eq_ok, check_eq_ok, orRaise_eq_ok, decide_eq_true_eq,
    SecretStore.update_eq_ok] at h
  obtain ⟨set, hset, -, hrevision, row, hrow, db₁, ⟨-, -, rfl⟩, -, -, rfl⟩ := h
  obtain ⟨r, hget, hversion⟩ := Option.bind_eq_some_iff.mp hrow
  have hmember := SecretStore.version?_eq_some hrow
  cases r with
  | set r => cases hversion
  | version r =>
      cases hversion
      have hkey : SecretKey.version row.tenantId row.secretSetId row.secretVersion =
          .version principal.tenantId secretSetId version := Table.key_of_get hget
      obtain ⟨htenant, hid, hnumber⟩ := SecretKey.version.inj hkey
      rw [← htenant, ← hid] at hset
      exact ⟨set, row, htenant, hid, hnumber, hset, hrevision, hmember, rfl⟩

/-! ## One active version -/

/-- The active version of a set is its highest, and no version is without its set. -/
structure SecretsInv (db : SecretStore) : Prop where
  highest : ∀ r r', SecretRow.version r ∈ db.rows → SecretRow.version r' ∈ db.rows →
    r'.tenantId = r.tenantId → r'.secretSetId = r.secretSetId → r.state = .active →
      r'.secretVersion ≤ r.secretVersion
  home : ∀ r, SecretRow.version r ∈ db.rows → db.get (.set r.tenantId r.secretSetId) ≠ none

theorem secretsInv_empty : SecretsInv Table.empty := by
  constructor
  · intro r r' hr
    simp [Table.empty] at hr
  · intro r hr
    simp [Table.empty] at hr

/-- The version rows after one is put. -/
theorem mem_put_version {db : SecretStore} {v r : SecretVersionRow} :
    SecretRow.version r ∈ (db.put (.version v)).rows ↔
      r = v ∨ SecretRow.version r ∈ db.rows ∧
        ¬ (r.tenantId = v.tenantId ∧ r.secretSetId = v.secretSetId ∧
          r.secretVersion = v.secretVersion) := by
  rw [Table.mem_put, SecretRow.version.injEq]
  refine or_congr_right (and_congr_right fun _ => not_congr ?_)
  change SecretKey.version _ _ _ = SecretKey.version _ _ _ ↔ _
  rw [SecretKey.version.injEq]

theorem mem_put_set {db : SecretStore} {s : SecretSetRow} {r : SecretVersionRow} :
    SecretRow.version r ∈ (db.put (.set s)).rows ↔ SecretRow.version r ∈ db.rows := by
  rw [Table.mem_put]
  constructor
  · rintro (heq | ⟨hr, -⟩)
    · cases heq
    · exact hr
  · intro hr
    exact Or.inr ⟨hr, fun h => by cases h⟩

/-- What a call leaves of a version: it is only ever less eligible. -/
structure SecretVersionRow.Ages (r r' : SecretVersionRow) : Prop where
  tenant : r'.tenantId = r.tenantId
  set : r'.secretSetId = r.secretSetId
  number : r'.secretVersion = r.secretVersion
  material : r'.keyId = r.keyId ∧ r'.nonce = r.nonce ∧ r'.ciphertext = r.ciphertext
  revoked : r.state = .revoked → r'.state = .revoked
  retiring : r.state = .retiring →
    r'.state = .revoked ∨ r'.state = .retiring ∧ r'.retiringUntil = r.retiringUntil

namespace SecretVersionRow.Ages

theorem refl (r : SecretVersionRow) : r.Ages r :=
  ⟨rfl, rfl, rfl, ⟨rfl, rfl, rfl⟩, id, fun h => Or.inr ⟨h, rfl⟩⟩

theorem trans {r₁ r₂ r₃ : SecretVersionRow} (h : r₁.Ages r₂) (h' : r₂.Ages r₃) : r₁.Ages r₃ where
  tenant := h'.tenant.trans h.tenant
  set := h'.set.trans h.set
  number := h'.number.trans h.number
  material := ⟨h'.material.1.trans h.material.1, h'.material.2.1.trans h.material.2.1,
    h'.material.2.2.trans h.material.2.2⟩
  revoked := fun hr => h'.revoked (h.revoked hr)
  retiring := by
    intro hr
    rcases h.retiring hr with hrevoked | ⟨hretiring, huntil⟩
    · exact Or.inl (h'.revoked hrevoked)
    · rcases h'.retiring hretiring with hrevoked | ⟨hretiring', huntil'⟩
      · exact Or.inl hrevoked
      · exact Or.inr ⟨hretiring', huntil'.trans huntil⟩

end SecretVersionRow.Ages

/-- Every version of `db` has its successor in `db'`. -/
def Keeps (db db' : SecretStore) : Prop :=
  ∀ r, SecretRow.version r ∈ db.rows → ∃ r', SecretRow.version r' ∈ db'.rows ∧ r.Ages r'

theorem keeps_refl (db : SecretStore) : Keeps db db := fun r hr => ⟨r, hr, .refl r⟩

theorem Keeps.trans {db₁ db₂ db₃ : SecretStore} (h : Keeps db₁ db₂) (h' : Keeps db₂ db₃) :
    Keeps db₁ db₃ := by
  intro r hr
  obtain ⟨r₂, hr₂, hages⟩ := h r hr
  obtain ⟨r₃, hr₃, hages'⟩ := h' r₂ hr₂
  exact ⟨r₃, hr₃, hages.trans hages'⟩

/-- A version row is put in the place of an older one of itself. -/
theorem keeps_put {db : SecretStore} {v v' : SecretVersionRow} (hv : SecretRow.version v ∈ db.rows)
    (hages : v.Ages v') : Keeps db (db.put (.version v')) := by
  intro r hr
  by_cases hkey : r.tenantId = v'.tenantId ∧ r.secretSetId = v'.secretSetId ∧
      r.secretVersion = v'.secretVersion
  · obtain ⟨htenant, hset, hnumber⟩ := hkey
    have hsame : (SecretRow.version r).key = (SecretRow.version v).key := by
      change SecretKey.version _ _ _ = SecretKey.version _ _ _
      rw [htenant, hset, hnumber, hages.tenant, hages.set, hages.number]
    cases SecretRow.version.inj (Table.eq_of_key_eq hr hv hsame)
    exact ⟨v', mem_put_version.mpr (Or.inl rfl), hages⟩
  · exact ⟨r, mem_put_version.mpr (Or.inr ⟨hr, hkey⟩), .refl r⟩

theorem keeps_put_new {db : SecretStore} {v : SecretVersionRow}
    (hnew : ∀ r, SecretRow.version r ∈ db.rows → r.tenantId = v.tenantId →
      r.secretSetId = v.secretSetId → r.secretVersion ≠ v.secretVersion) :
    Keeps db (db.put (.version v)) := fun r hr =>
  ⟨r, mem_put_version.mpr (Or.inr ⟨hr, fun h => hnew r hr h.1 h.2.1 h.2.2⟩), .refl r⟩

theorem keeps_put_set {db : SecretStore} {s : SecretSetRow} : Keeps db (db.put (.set s)) :=
  fun r hr => ⟨r, mem_put_set.mpr hr, .refl r⟩

/-- The sets after one is put. -/
theorem get_put_set {db : SecretStore} {s : SecretSetRow} {tenantId secretSetId : UUID}
    (h : db.get (.set tenantId secretSetId) ≠ none) :
    (db.put (.set s)).get (.set tenantId secretSetId) ≠ none := by
  rw [Table.get_put]
  split_ifs
  · simp
  · exact h

theorem get_put_version {db : SecretStore} {v : SecretVersionRow} {tenantId secretSetId : UUID} :
    (db.put (.version v)).get (.set tenantId secretSetId) = db.get (.set tenantId secretSetId) := by
  rw [Table.get_put, if_neg]
  intro h
  cases h

/-! ## Each call -/

/-- What a call that succeeds makes of a store. -/
structure CallOk (db db' : SecretStore) : Prop where
  inv : SecretsInv db'
  keeps : Keeps db db'

theorem Creates.ok {set : SecretSetRow} {new : SecretVersionRow} {db db' : SecretStore}
    (hinv : SecretsInv db) (h : Creates set new db db') :
    CallOk db db' ∧ ∀ r, SecretRow.version r ∈ db.rows → r.tenantId = new.tenantId →
      r.secretSetId ≠ new.secretSetId := by
  have hnone : ∀ r, SecretRow.version r ∈ db.rows → r.tenantId = new.tenantId →
      r.secretSetId ≠ new.secretSetId := by
    intro r hr htenant hset
    have hhome := hinv.home r hr
    rw [htenant, hset] at hhome
    exact hhome h.fresh
  have hmem : ∀ r, SecretRow.version r ∈ db'.rows → r = new ∨ SecretRow.version r ∈ db.rows := by
    intro r hr
    rw [h.result, mem_put_version, mem_put_set] at hr
    exact hr.imp id And.left
  refine ⟨⟨⟨?_, ?_⟩, ?_⟩, hnone⟩
  · intro r r' hr hr' htenant hset hactive
    rcases hmem r hr with rfl | hr
    · rcases hmem r' hr' with rfl | hr'
      · exact le_refl _
      · exact absurd hset (hnone r' hr' htenant)
    · rcases hmem r' hr' with rfl | hr'
      · exact absurd hset.symm (hnone r hr htenant.symm)
      · exact hinv.highest r r' hr hr' htenant hset hactive
  · intro r hr
    rcases hmem r hr with rfl | hr
    · rw [h.result, get_put_version, ← h.home.1, ← h.home.2]
      have hput := Table.get_put_self db (SecretRow.set set)
      intro hnone'
      cases hput.symm.trans hnone'
    · rw [h.result, get_put_version]
      exact get_put_set (hinv.home r hr)
  · rw [h.result]
    refine keeps_put_set.trans (keeps_put_new ?_)
    intro r hr htenant hset
    exact absurd hset (hnone r (mem_put_set.mp hr) htenant)

theorem Replaces.ok {set : SecretSetRow} {active new : SecretVersionRow} {expectedRevision : ℤ}
    {until_ now : Datetime} {db db' : SecretStore} (hinv : SecretsInv db) (hstate : new.state = .active)
    (h : Replaces set active new expectedRevision until_ now db db') :
    CallOk db db' ∧ ∀ r, SecretRow.version r ∈ db.rows → r.tenantId = new.tenantId →
      r.secretSetId = new.secretSetId → r.secretVersion < new.secretVersion := by
  obtain ⟨hmember, htenant, hset⟩ := SecretStore.mem_versions.mp h.member
  have hbelow : ∀ r, SecretRow.version r ∈ db.rows → r.tenantId = new.tenantId →
      r.secretSetId = new.secretSetId → r.secretVersion ≤ active.secretVersion :=
    fun r hr ht hs => hinv.highest active r hmember hr (ht.trans htenant.symm) (hs.trans hset.symm) h.state
  have hlater : ∀ r, SecretRow.version r ∈ db.rows → r.tenantId = new.tenantId →
      r.secretSetId = new.secretSetId → r.secretVersion < new.secretVersion := by
    intro r hr ht hs
    have hle := hbelow r hr ht hs
    rw [h.next]
    omega
  have hmem : ∀ r, SecretRow.version r ∈ db'.rows → r = new ∨
      r = { active with state := .retiring, retiringUntil := some until_ } ∨
      (SecretRow.version r ∈ db.rows ∧ ¬ (r.tenantId = active.tenantId ∧
        r.secretSetId = active.secretSetId ∧ r.secretVersion = active.secretVersion)) := by
    intro r hr
    rw [h.result, mem_put_set, mem_put_version, mem_put_version] at hr
    exact hr.imp id And.left
  -- the number of a version that is not the new one stays below the new one
  have hold : ∀ r, SecretRow.version r ∈ db'.rows → r.tenantId = new.tenantId →
      r.secretSetId = new.secretSetId → r.secretVersion ≤ new.secretVersion := by
    intro r hr ht hs
    rcases hmem r hr with rfl | rfl | ⟨hr, -⟩
    · exact le_refl _
    · exact (hlater active hmember htenant hset).le
    · exact (hlater r hr ht hs).le
  refine ⟨⟨⟨?_, ?_⟩, ?_⟩, hlater⟩
  · intro r r' hr hr' ht hs hactive
    rcases hmem r hr with rfl | rfl | ⟨hr, hne⟩
    · exact hold r' hr' ht hs
    · cases hactive
    · rcases hmem r' hr' with rfl | rfl | ⟨hr', -⟩
      · -- an active version of this set was the highest one, which is retiring now
        have hle := hinv.highest r active hr hmember (htenant.trans ht) (hset.trans hs) hactive
        have hge := hbelow r hr ht.symm hs.symm
        exact absurd ⟨ht.symm.trans htenant.symm, hs.symm.trans hset.symm, le_antisymm hge hle⟩ hne
      · exact hinv.highest r active hr hmember ht hs hactive
      · exact hinv.highest r r' hr hr' ht hs hactive
  · intro r hr
    have hnew := hinv.home active hmember
    rw [htenant, hset] at hnew
    rw [h.result]
    refine get_put_set ?_
    rw [get_put_version, get_put_version]
    rcases hmem r hr with rfl | rfl | ⟨hr, -⟩
    · exact hnew
    · exact hinv.home active hmember
    · exact hinv.home r hr
  · rw [h.result]
    have hretired : active.Ages { active with state := .retiring, retiringUntil := some until_ } :=
      ⟨rfl, rfl, rfl, ⟨rfl, rfl, rfl⟩, fun hs => (nomatch h.state.symm.trans hs),
        fun hs => (nomatch h.state.symm.trans hs)⟩
    refine ((keeps_put hmember hretired).trans (keeps_put_new ?_)).trans keeps_put_set
    intro r hr ht hs heq
    rcases mem_put_version.mp hr with rfl | ⟨hr, -⟩
    · exact absurd heq (hlater active hmember htenant hset).ne
    · exact absurd heq (hlater r hr ht hs).ne

theorem Revokes.ok {set : SecretSetRow} {row : SecretVersionRow} {expectedRevision : ℤ}
    {now : Datetime} {db db' : SecretStore} (hinv : SecretsInv db)
    (h : Revokes set row expectedRevision now db db') : CallOk db db' := by
  have hmem : ∀ r, SecretRow.version r ∈ db'.rows →
      r = { row with state := .revoked, retiringUntil := none, revokedAt := some now } ∨
      SecretRow.version r ∈ db.rows := by
    intro r hr
    rw [h.result, mem_put_set, mem_put_version] at hr
    exact hr.imp id And.left
  have hrevoked : row.Ages
      { row with state := .revoked, retiringUntil := none, revokedAt := some now } :=
    ⟨rfl, rfl, rfl, ⟨rfl, rfl, rfl⟩, fun _ => rfl, fun _ => Or.inl rfl⟩
  refine ⟨⟨?_, ?_⟩, ?_⟩
  · intro r r' hr hr' ht hs hactive
    rcases hmem r hr with rfl | hr
    · cases hactive
    · rcases hmem r' hr' with rfl | hr'
      · exact hinv.highest r row hr h.member ht hs hactive
      · exact hinv.highest r r' hr hr' ht hs hactive
  · intro r hr
    rw [h.result]
    refine get_put_set ?_
    rw [get_put_version]
    rcases hmem r hr with rfl | hr
    · exact hinv.home row h.member
    · exact hinv.home r hr
  · rw [h.result]
    exact (keeps_put h.member hrevoked).trans keeps_put_set

/-- The revision of a set was the expected one, and is the next one. -/
def Advanced (tenantId secretSetId : UUID) (expectedRevision : ℤ) (db db' : SecretStore) : Prop :=
  ∃ set set', db.set? tenantId secretSetId = some set ∧ set.revision = expectedRevision ∧
    db'.set? tenantId secretSetId = some set' ∧ set'.revision = set.revision + 1

theorem set?_put_set {db : SecretStore} {s : SecretSetRow} :
    SecretStore.set? (db.put (.set s)) s.tenantId s.secretSetId = some s :=
  Option.bind_eq_some_iff.mpr ⟨_, Table.get_put_self db (SecretRow.set s), rfl⟩

theorem Replaces.advanced {set : SecretSetRow} {active new : SecretVersionRow} {expectedRevision : ℤ}
    {until_ now : Datetime} {db db' : SecretStore}
    (h : Replaces set active new expectedRevision until_ now db db') :
    Advanced new.tenantId new.secretSetId expectedRevision db db' := by
  obtain ⟨-, htenant, hid⟩ := set?_eq_some h.stored
  refine ⟨set, { set with revision := set.revision + 1, updatedAt := now }, h.stored, h.revision, ?_,
    rfl⟩
  rw [h.result, ← htenant, ← hid]
  exact set?_put_set

theorem Revokes.advanced {set : SecretSetRow} {row : SecretVersionRow} {expectedRevision : ℤ}
    {now : Datetime} {db db' : SecretStore} (h : Revokes set row expectedRevision now db db') :
    Advanced row.tenantId row.secretSetId expectedRevision db db' := by
  obtain ⟨-, htenant, hid⟩ := set?_eq_some h.stored
  refine ⟨set, { set with revision := set.revision + 1, updatedAt := now }, h.stored, h.revision, ?_,
    rfl⟩
  rw [h.result, ← htenant, ← hid]
  exact set?_put_set

section Runs

variable [AesGcm]

/-- One call. -/
theorem run_ok {call : SecretCall} {db db' : SecretStore} (hinv : SecretsInv db)
    (h : call.run db = .ok db') : CallOk db db' := by
  cases call with
  | create provider principal secretSetId draw now =>
      obtain ⟨⟨created, db''⟩, hcreate, rfl⟩ := map_eq_ok.mp h
      obtain ⟨set, new, -, -, -, -, hcreates⟩ := createSecret_cases hcreate
      exact (hcreates.ok hinv).1
  | rotate provider principal secretSetId expectedRevision overlap draw now =>
      obtain ⟨⟨created, db''⟩, hrotate, rfl⟩ := map_eq_ok.mp h
      obtain ⟨set, active, new, until_, -, -, hstate, -, hreplaces⟩ := rotateSecret_cases hrotate
      exact (hreplaces.ok hinv hstate).1
  | revoke principal secretSetId version expectedRevision now =>
      obtain ⟨set, row, -, -, -, hrevokes⟩ := revokeSecret_cases h
      exact hrevokes.ok hinv

/-- A sequence of calls. -/
theorem runSecretCalls_ok {db : SecretStore} (hinv : SecretsInv db) (calls : List SecretCall) :
    CallOk db (runSecretCalls db calls) := by
  induction calls generalizing db with
  | nil => exact ⟨hinv, keeps_refl db⟩
  | cons call rest ih =>
      unfold runSecretCalls
      split
      · rename_i db' hrun
        have hcall := run_ok hinv hrun
        have hrest := ih hcall.inv
        exact ⟨hrest.inv, hcall.keeps.trans hrest.keeps⟩
      · exact ih hinv

theorem runSecretCalls_append (db : SecretStore) (calls later : List SecretCall) :
    runSecretCalls db (calls ++ later) = runSecretCalls (runSecretCalls db calls) later := by
  induction calls generalizing db with
  | nil => rfl
  | cons call rest ih =>
      rw [List.cons_append, runSecretCalls, runSecretCalls]
      split
      · exact ih _
      · exact ih _

/-- The rows of one version in a store and later. -/
theorem ages_later {db : SecretStore} (hinv : SecretsInv db) {later : List SecretCall}
    {r r' : SecretVersionRow} (hr : SecretRow.version r ∈ db.rows)
    (hr' : SecretRow.version r' ∈ (runSecretCalls db later).rows)
    (hkey : (SecretRow.version r').key = (SecretRow.version r).key) : r.Ages r' := by
  obtain ⟨r'', hr'', hages⟩ := (runSecretCalls_ok hinv later).keeps r hr
  have hsame : (SecretRow.version r').key = (SecretRow.version r'').key := by
    rw [hkey]
    change SecretKey.version _ _ _ = SecretKey.version _ _ _
    rw [hages.tenant, hages.set, hages.number]
  cases SecretRow.version.inj (Table.eq_of_key_eq hr' hr'' hsame)
  exact hages

/-- Over every sequence of calls, a set has at most one active version, which is its highest;
no version disappears; a revoked version is never eligible again, and a retiring one not after
its time; and a call that succeeds raises the revision it expects by one. -/
theorem secret_lifecycle (calls : List SecretCall) :
    (∀ r r', SecretRow.version r ∈ (runSecretCalls Table.empty calls).rows →
      SecretRow.version r' ∈ (runSecretCalls Table.empty calls).rows →
      r'.tenantId = r.tenantId → r'.secretSetId = r.secretSetId → r.state = .active →
        r'.secretVersion ≤ r.secretVersion ∧ (r'.state = .active → r' = r)) ∧
    (∀ later r, SecretRow.version r ∈ (runSecretCalls Table.empty calls).rows →
      ∃ r', SecretRow.version r' ∈ (runSecretCalls (runSecretCalls Table.empty calls) later).rows ∧
        r.Ages r') ∧
    (∀ later r r' now, SecretRow.version r ∈ (runSecretCalls Table.empty calls).rows →
      SecretRow.version r' ∈ (runSecretCalls (runSecretCalls Table.empty calls) later).rows →
      (SecretRow.version r').key = (SecretRow.version r).key → r'.eligible now = true →
        r.state ≠ .revoked ∧
          (r.state = .retiring → ∃ until_, r.retiringUntil = some until_ ∧ now ≤ until_)) ∧
    (∀ provider principal secretSetId draw now created db',
      createSecret provider principal secretSetId draw now (runSecretCalls Table.empty calls) =
        .ok (created, db') → created.version = 1 ∧
        ∀ r, SecretRow.version r ∈ (runSecretCalls Table.empty calls).rows →
          ¬ (r.tenantId = principal.tenantId ∧ r.secretSetId = secretSetId)) ∧
    (∀ provider principal secretSetId expectedRevision overlap draw now created db',
      rotateSecret provider principal secretSetId expectedRevision overlap draw now
        (runSecretCalls Table.empty calls) = .ok (created, db') →
        Advanced principal.tenantId secretSetId expectedRevision
          (runSecretCalls Table.empty calls) db' ∧
        ∀ r, SecretRow.version r ∈ (runSecretCalls Table.empty calls).rows →
          r.tenantId = principal.tenantId → r.secretSetId = secretSetId →
            r.secretVersion < created.version) ∧
    (∀ principal secretSetId version expectedRevision now db',
      revokeSecret principal secretSetId version expectedRevision now
        (runSecretCalls Table.empty calls) = .ok db' →
        Advanced principal.tenantId secretSetId expectedRevision
          (runSecretCalls Table.empty calls) db') ∧
    ∀ call e, SecretCall.run (runSecretCalls Table.empty calls) call = .error e →
      runSecretCalls Table.empty (calls ++ [call]) = runSecretCalls Table.empty calls := by
  have hinv := (runSecretCalls_ok secretsInv_empty calls).inv
  refine ⟨?_, ?_, ?_, ?_, ?_, ?_, ?_⟩
  · intro r r' hr hr' htenant hset hactive
    have hle := hinv.highest r r' hr hr' htenant hset hactive
    refine ⟨hle, fun hactive' => ?_⟩
    have hge := hinv.highest r' r hr' hr htenant.symm hset.symm hactive'
    have hkey : (SecretRow.version r').key = (SecretRow.version r).key := by
      change SecretKey.version _ _ _ = SecretKey.version _ _ _
      rw [htenant, hset, le_antisymm hle hge]
    exact SecretRow.version.inj (Table.eq_of_key_eq hr' hr hkey)
  · intro later r hr
    exact (runSecretCalls_ok hinv later).keeps r hr
  · intro later r r' now hr hr' hkey heligible
    have hages := ages_later hinv hr hr' hkey
    have heligible := of_decide_eq_true heligible
    constructor
    · intro hrevoked
      rw [hages.revoked hrevoked] at heligible
      rcases heligible with h | ⟨h, -⟩ <;> cases h
    · intro hretiring
      rcases hages.retiring hretiring with hrevoked | ⟨hretiring', huntil⟩
      · rw [hrevoked] at heligible
        rcases heligible with h | ⟨h, -⟩ <;> cases h
      · rw [hretiring', huntil] at heligible
        rcases heligible with h | ⟨-, h⟩
        · cases h
        · obtain ⟨until_, huntil', hle⟩ := (Option.any_eq_true _ _).mp h
          exact ⟨until_, huntil', of_decide_eq_true hle⟩
  · intro provider principal secretSetId draw now created db' h
    obtain ⟨set, new, htenant, hset, -, hversion, hcreates⟩ := createSecret_cases h
    refine ⟨hversion.trans hcreates.first.2, ?_⟩
    rintro r hr ⟨ht, hs⟩
    exact (hcreates.ok hinv).2 r hr (ht.trans htenant.symm) (hs.trans hset.symm)
  · intro provider principal secretSetId expectedRevision overlap draw now created db' h
    obtain ⟨set, active, new, until_, htenant, hset, hstate, hversion, hreplaces⟩ :=
      rotateSecret_cases h
    rw [← htenant, ← hset, hversion]
    exact ⟨hreplaces.advanced, (hreplaces.ok hinv hstate).2⟩
  · intro principal secretSetId version expectedRevision now db' h
    obtain ⟨set, row, htenant, hset, -, hrevokes⟩ := revokeSecret_cases h
    rw [← htenant, ← hset]
    exact hrevokes.advanced
  · intro call e h
    rw [runSecretCalls_append, runSecretCalls, h]
    rfl

end Runs

end FastapiEffects
