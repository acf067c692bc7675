import FastapiEffects.Core.Principal
import FastapiEffects.ReadCommitted.Table
import FastapiEffects.Webhooks.Signing
import Mathlib.Data.List.Sort

/-! # Webhook signing secrets

The encrypted secret sets of `WebhookSecretService`: `create`, `rotate` and `revoke`,
and the materials `eligible_for_signing` opens for the relay. Random bytes and new
identities are arguments of the calls that draw them.
-/

namespace FastapiEffects

open Python ReadCommitted

/-- AES-GCM of the `cryptography` package: a tag of 16 bytes after the encrypted data. -/
class AesGcm where
  encrypt (key nonce data associated : Bytes) : Bytes
  decrypt? (key nonce data associated : Bytes) : Option Bytes
  decrypt?_encrypt : ∀ key nonce data associated : Bytes,
    decrypt? key nonce (encrypt key nonce data associated) associated = some data
  length_encrypt : ∀ key nonce data associated : Bytes,
    (encrypt key nonce data associated).length = data.length + 16
  length_decrypt : ∀ key nonce data associated plain : Bytes,
    decrypt? key nonce data associated = some plain → data.length = plain.length + 16

/-! ## Keys and rows -/

/-- `MasterKey`. -/
structure MasterKey where
  keyId : Str
  material : Bytes
  keyId_valid : keyId ≠ [] ∧ keyId.length ≤ 128
  material_valid : material.length ∈ [16, 24, 32]

/-- What a `MasterKeyProvider` answers in one call. -/
structure MasterKeyProvider where
  currentKey : Except PyError MasterKey
  keyFor : Str → Except PyError MasterKey

/-- `StaticMasterKeyProvider`. -/
def staticMasterKeyProvider (keys : List MasterKey) (currentKeyId : Str) : MasterKeyProvider :=
  let keyFor (keyId : Str) := orRaise (keys.find? fun key => key.keyId = keyId)
    (.configuration "Configured webhook master key is unavailable.")
  ⟨keyFor currentKeyId, keyFor⟩

/-- `WebhookSecretSetRow`. -/
structure SecretSetRow where
  tenantId : UUID
  secretSetId : UUID
  revision : ℤ
  createdBy : Str
  createdAt : Datetime
  updatedAt : Datetime
deriving DecidableEq

/-- The states of a version. -/
inductive SecretState where
  | active
  | retiring
  | revoked
deriving DecidableEq, Repr

/-- `WebhookSecretVersionRow`. -/
structure SecretVersionRow where
  tenantId : UUID
  secretSetId : UUID
  secretVersion : ℤ
  keyId : Str
  nonce : Bytes
  ciphertext : Bytes
  state : SecretState
  retiringUntil : Option Datetime := none
  createdAt : Datetime
  revokedAt : Option Datetime := none
deriving DecidableEq

/-- The primary keys. -/
inductive SecretKey where
  | set (tenantId secretSetId : UUID)
  | version (tenantId secretSetId : UUID) (secretVersion : ℤ)
deriving DecidableEq

inductive SecretRow where
  | set (r : SecretSetRow)
  | version (r : SecretVersionRow)
deriving DecidableEq

namespace SecretRow

def key : SecretRow → SecretKey
  | .set r => .set r.tenantId r.secretSetId
  | .version r => .version r.tenantId r.secretSetId r.secretVersion

/-- The `CHECK`s of the two tables. -/
def checks : SecretRow → Bool
  | .set r => 0 < r.revision
  | .version r =>
      0 < r.secretVersion ∧ r.nonce.length = 12 ∧ 16 ≤ r.ciphertext.length ∧
        (r.state = .retiring ↔ r.retiringUntil.isSome)

/-- Whether the columns can hold the values: integers of 32 bits, text without NUL. -/
def fits : SecretRow → Bool
  | .set r => r.revision ≤ 2147483647 ∧ r.createdBy.encode?.isSome
  | .version r => r.secretVersion ≤ 2147483647 ∧ r.keyId.encode?.isSome ∧
      .scalar (Char.ofNat 0) ∉ r.keyId

def set? : SecretRow → Option SecretSetRow
  | .set r => some r
  | .version _ => none

def version? : SecretRow → Option SecretVersionRow
  | .version r => some r
  | .set _ => none

end SecretRow

instance : Schema SecretKey SecretRow := ⟨SecretRow.key, fun _ _ => false, fun _ _ => rfl⟩

/-- The two tables. -/
abbrev SecretStore := Table SecretKey SecretRow

namespace SecretStore

/-- An `UPDATE` of a row. -/
def update (db : SecretStore) (r : SecretRow) : Except PyError SecretStore := do
  check r.checks .integrity
  check r.fits .data
  return db.put r

/-- An `INSERT` of a row. -/
def add (db : SecretStore) (r : SecretRow) : Except PyError SecretStore := do
  check (db.get r.key).isNone .integrity
  db.update r

def set? (db : SecretStore) (tenantId secretSetId : UUID) : Option SecretSetRow :=
  (db.get (.set tenantId secretSetId)).bind SecretRow.set?

def version? (db : SecretStore) (tenantId secretSetId : UUID) (version : ℤ) :
    Option SecretVersionRow :=
  (db.get (.version tenantId secretSetId version)).bind SecretRow.version?

/-- The versions of a set. -/
def versions (db : SecretStore) (tenantId secretSetId : UUID) : List SecretVersionRow :=
  (db.rows.filterMap SecretRow.version?).filter fun r =>
    r.tenantId = tenantId ∧ r.secretSetId = secretSetId

/-- What an `UPDATE` that the schema allows stores. -/
theorem update_eq_ok {db db' : SecretStore} {r : SecretRow} :
    db.update r = .ok db' ↔ r.checks = true ∧ r.fits = true ∧ db' = db.put r := by
  simp only [update, bind_eq_ok, check_eq_ok]
  constructor
  · rintro ⟨-, hchecks, -, hfits, hdb⟩
    cases hdb
    exact ⟨hchecks, hfits, rfl⟩
  · rintro ⟨hchecks, hfits, rfl⟩
    exact ⟨(), hchecks, (), hfits, rfl⟩

theorem add_eq_ok {db db' : SecretStore} {r : SecretRow} :
    db.add r = .ok db' ↔
      db.get r.key = none ∧ r.checks = true ∧ r.fits = true ∧ db' = db.put r := by
  simp only [add, bind_eq_ok, check_eq_ok, update_eq_ok,
    Option.isNone_iff_eq_none]
  constructor
  · rintro ⟨-, h⟩
    exact h
  · intro h
    exact ⟨(), h⟩

theorem mem_filterMap_version {rows : List SecretRow} {r : SecretVersionRow} :
    r ∈ rows.filterMap SecretRow.version? ↔ SecretRow.version r ∈ rows := by
  rw [List.mem_filterMap]
  constructor
  · rintro ⟨row, hrow, hversion⟩
    cases row with
    | set r' => cases hversion
    | version r' =>
        cases hversion
        exact hrow
  · intro hr
    exact ⟨_, hr, rfl⟩

theorem mem_versions {db : SecretStore} {tenantId secretSetId : UUID} {r : SecretVersionRow} :
    r ∈ db.versions tenantId secretSetId ↔
      SecretRow.version r ∈ db.rows ∧ r.tenantId = tenantId ∧ r.secretSetId = secretSetId := by
  rw [versions, List.mem_filter, mem_filterMap_version, decide_eq_true_eq]

theorem version?_eq_some {db : SecretStore} {tenantId secretSetId : UUID} {version : ℤ}
    {r : SecretVersionRow} (h : db.version? tenantId secretSetId version = some r) :
    SecretRow.version r ∈ db.rows := by
  obtain ⟨row, hrow, hversion⟩ := Option.bind_eq_some_iff.mp h
  cases row with
  | set r' => cases hversion
  | version r' =>
      cases hversion
      exact Table.mem_of_get hrow

end SecretStore

/-! ## The service -/

/-- `_associated_data`. -/
def associatedData (tenantId secretSetId : UUID) (version : ℤ) : Bytes :=
  "fastapi_effects:webhook-secret:v1".toList.map (fun c => UInt8.ofNat c.toNat) ++ 0 ::
    tenantId.bytes ++ secretSetId.bytes ++ toBytesBig 8 version.toNat

/-- `CreatedWebhookSecret`. -/
structure CreatedWebhookSecret where
  secretSetId : UUID
  version : ℤ
  plaintext : Str
deriving DecidableEq

/-- `_encode_public`. -/
def encodePublic (material : Bytes) : Str := "whsec_" ++ Base64.encode material

/-- `decode_public_secret`. -/
def decodePublicSecret (value : Str) : Except PyError Bytes := do
  let invalid := PyError.configuration "Webhook signing secret is invalid."
  check (Str.ofString "whsec_" <+: value) invalid
  let decoded ← orRaise (Base64.decode? (value.drop 6)) invalid
  check (16 ≤ decoded.length) invalid
  return decoded

/-- A receiver gets the signing material back. -/
theorem decodePublicSecret_encodePublic {material : Bytes} (h : 16 ≤ material.length) :
    decodePublicSecret (encodePublic material) = .ok material := by
  have hdrop : (encodePublic material).drop 6 = Base64.encode material := by
    simp [encodePublic, Str.ofString]
  simp only [decodePublicSecret, bind_eq_ok, check_eq_ok, orRaise_eq_ok, hdrop,
    Base64.decode?_encode]
  exact ⟨(), decide_eq_true (List.prefix_append _ _), material, rfl, (), decide_eq_true h, rfl⟩

/-- The filter of `eligible_for_signing`. -/
def SecretVersionRow.eligible (r : SecretVersionRow) (now : Datetime) : Bool :=
  r.state = .active ∨ (r.state = .retiring ∧ r.retiringUntil.any fun t => now ≤ t)

/-- The rows of `eligible_for_signing`, the latest version first. -/
def eligibleVersions (tenantId secretSetId : UUID) (now : Datetime) (db : SecretStore) :
    List SecretVersionRow :=
  ((db.versions tenantId secretSetId).filter (·.eligible now)).insertionSort
    fun r r' => r'.secretVersion ≤ r.secretVersion

/-- `WebhookSecretService.revoke`. -/
def revokeSecret (principal : Principal) (secretSetId : UUID) (version expectedRevision : ℤ)
    (now : Datetime) (db : SecretStore) : Except PyError SecretStore := do
  let conflict := PyError.optimisticConflict "webhook_secret_set"
  let set ← orRaise (db.set? principal.tenantId secretSetId) conflict
  check (set.revision = expectedRevision) conflict
  let row ← orRaise (db.version? principal.tenantId secretSetId version)
    (.configuration "Webhook secret version does not exist.")
  let db ← db.update (.version {
    row with state := .revoked, retiringUntil := none, revokedAt := some now })
  db.update (.set { set with revision := set.revision + 1, updatedAt := now })

/-- Every version holds an encrypted secret of 32 bytes. -/
def Sealed (db : SecretStore) : Prop :=
  ∀ r, SecretRow.version r ∈ db.rows → r.ciphertext.length = 48

theorem sealed_empty : Sealed Table.empty := by
  intro r hr
  simp [Table.empty] at hr

theorem sealed_put {db : SecretStore} {r : SecretRow} (hdb : Sealed db)
    (hr : ∀ v, r = .version v → v.ciphertext.length = 48) : Sealed (db.put r) := by
  intro v hv
  rcases Table.mem_put.mp hv with heq | ⟨hv, -⟩
  · exact hr v heq.symm
  · exact hdb v hv

theorem sealed_set {db : SecretStore} {r : SecretSetRow} (hdb : Sealed db) :
    Sealed (db.put (.set r)) :=
  sealed_put hdb fun _ h => by cases h

section Service

variable [AesGcm]

/-- What the operating system draws for a new version: its material and its nonce. -/
structure SecretDraw where
  material : Vector UInt8 32
  nonce : Vector UInt8 12

/-- A new version. -/
def newVersion (key : MasterKey) (tenantId secretSetId : UUID) (version : ℤ) (draw : SecretDraw)
    (now : Datetime) : SecretVersionRow where
  tenantId := tenantId
  secretSetId := secretSetId
  secretVersion := version
  keyId := key.keyId
  nonce := draw.nonce.toList
  ciphertext := AesGcm.encrypt key.material draw.nonce.toList draw.material.toList
    (associatedData tenantId secretSetId version)
  state := .active
  createdAt := now

/-- `WebhookSecretService.create`. -/
def createSecret (provider : MasterKeyProvider) (principal : Principal) (secretSetId : UUID)
    (draw : SecretDraw) (now : Datetime) (db : SecretStore) :
    Except PyError (CreatedWebhookSecret × SecretStore) := do
  let key ← provider.currentKey
  let db ← db.add (.set {
    tenantId := principal.tenantId
    secretSetId := secretSetId
    revision := 1
    createdBy := principal.subjectId
    createdAt := now
    updatedAt := now })
  let db ← db.add (.version (newVersion key principal.tenantId secretSetId 1 draw now))
  return (⟨secretSetId, 1, encodePublic draw.material.toList⟩, db)

/-- The longest overlap of a rotation: 30 days. -/
def maxOverlap : Timedelta := 30 * 86400000000

/-- `WebhookSecretService.rotate`. -/
def rotateSecret (provider : MasterKeyProvider) (principal : Principal) (secretSetId : UUID)
    (expectedRevision : ℤ) (overlap : Timedelta) (draw : SecretDraw) (now : Datetime)
    (db : SecretStore) : Except PyError (CreatedWebhookSecret × SecretStore) := do
  check (0 < overlap ∧ overlap ≤ maxOverlap)
    (.configuration "Webhook secret overlap must be in (0, 30 days].")
  let set ← orRaise (db.set? principal.tenantId secretSetId)
    (.configuration "Webhook secret set does not exist.")
  check (set.revision = expectedRevision) (.optimisticConflict "webhook_secret_set")
  let active ← orRaise
    ((db.versions principal.tenantId secretSetId).find? fun r => r.state = .active)
    (.configuration "Webhook secret set has no active key.")
  let retiringUntil ← orRaise (Datetime.add? now overlap) .overflow
  let key ← provider.currentKey
  let db ← db.update (.version {
    active with state := .retiring, retiringUntil := some retiringUntil })
  let db ← db.add (.version
    (newVersion key principal.tenantId secretSetId (active.secretVersion + 1) draw now))
  let db ← db.update (.set { set with revision := set.revision + 1, updatedAt := now })
  return (⟨secretSetId, active.secretVersion + 1, encodePublic draw.material.toList⟩, db)

/-- `SigningSecret`. -/
structure SigningSecret where
  version : ℤ
  material : Bytes
deriving DecidableEq

/-- `_decrypt` of a row. -/
def openSecret (provider : MasterKeyProvider) (r : SecretVersionRow) :
    Except PyError SigningSecret := do
  let key ← provider.keyFor r.keyId
  let material ← orRaise
    (AesGcm.decrypt? key.material r.nonce r.ciphertext
      (associatedData r.tenantId r.secretSetId r.secretVersion))
    (.configuration "Webhook encrypted secret could not be opened.")
  return ⟨r.secretVersion, material⟩

/-- `WebhookSecretService.eligible_for_signing`. -/
def eligibleForSigning (provider : MasterKeyProvider) (tenantId secretSetId : UUID)
    (now : Datetime) (db : SecretStore) : Except PyError (List SigningSecret) := do
  let rows := eligibleVersions tenantId secretSetId now db
  check (rows ≠ []) .noEligibleSigningKey
  rows.mapM (openSecret provider)

/-! ## Sequences of calls -/

/-- The calls that change the store. -/
inductive SecretCall where
  | create (provider : MasterKeyProvider) (principal : Principal) (secretSetId : UUID)
      (draw : SecretDraw) (now : Datetime)
  | rotate (provider : MasterKeyProvider) (principal : Principal) (secretSetId : UUID)
      (expectedRevision : ℤ) (overlap : Timedelta) (draw : SecretDraw) (now : Datetime)
  | revoke (principal : Principal) (secretSetId : UUID) (version expectedRevision : ℤ)
      (now : Datetime)

/-- The store after a call. -/
def SecretCall.run (db : SecretStore) : SecretCall → Except PyError SecretStore
  | .create provider principal secretSetId draw now =>
      (createSecret provider principal secretSetId draw now db).map (·.2)
  | .rotate provider principal secretSetId expectedRevision overlap draw now =>
      (rotateSecret provider principal secretSetId expectedRevision overlap draw now db).map (·.2)
  | .revoke principal secretSetId version expectedRevision now =>
      revokeSecret principal secretSetId version expectedRevision now db

/-- The store after a sequence of calls; one that raises is rolled back. -/
def runSecretCalls (db : SecretStore) : List SecretCall → SecretStore
  | [] => db
  | call :: rest =>
      match call.run db with
      | .ok db' => runSecretCalls db' rest
      | .error _ => runSecretCalls db rest

/-! ## What is stored -/

section Sealed

theorem sealed_newVersion {db : SecretStore} {key : MasterKey} {tenantId secretSetId : UUID}
    {version : ℤ} {draw : SecretDraw} {now : Datetime} (hdb : Sealed db) :
    Sealed (db.put (.version (newVersion key tenantId secretSetId version draw now))) := by
  refine sealed_put hdb ?_
  rintro v hv
  cases hv
  simp [newVersion, AesGcm.length_encrypt]

/-- What a call leaves behind. -/
theorem sealed_run {db db' : SecretStore} {call : SecretCall} (hdb : Sealed db)
    (h : call.run db = .ok db') : Sealed db' := by
  cases call with
  | create provider principal secretSetId draw now =>
      simp only [SecretCall.run, createSecret, map_eq_ok, bind_eq_ok, SecretStore.add_eq_ok] at h
      obtain ⟨result, ⟨key, -, db₁, ⟨-, -, -, rfl⟩, db₂, ⟨-, -, -, rfl⟩, hresult⟩, rfl⟩ := h
      cases hresult
      exact sealed_newVersion (sealed_set hdb)
  | rotate provider principal secretSetId expectedRevision overlap draw now =>
      simp only [SecretCall.run, rotateSecret, map_eq_ok, bind_eq_ok, SecretStore.add_eq_ok,
        SecretStore.update_eq_ok] at h
      obtain ⟨result, ⟨-, -, set, -, -, -, active, hactive, until_, -, key, -, db₁, ⟨-, -, rfl⟩,
        db₂, ⟨-, -, -, rfl⟩, db₃, ⟨-, -, rfl⟩, hresult⟩, rfl⟩ := h
      cases hresult
      have hmem := (SecretStore.mem_versions.mp
        (List.mem_of_find?_eq_some (orRaise_eq_ok.mp hactive))).1
      refine sealed_set (sealed_newVersion (sealed_put hdb ?_))
      rintro v hv
      cases hv
      exact hdb active hmem
  | revoke principal secretSetId version expectedRevision now =>
      simp only [SecretCall.run, revokeSecret, bind_eq_ok, SecretStore.update_eq_ok] at h
      obtain ⟨set, -, -, -, row, hrow, db₁, ⟨-, -, rfl⟩, -, -, rfl⟩ := h
      have hmem := SecretStore.version?_eq_some (orRaise_eq_ok.mp hrow)
      refine sealed_set (sealed_put hdb ?_)
      rintro v hv
      cases hv
      exact hdb row hmem

theorem sealed_runSecretCalls {db : SecretStore} (hdb : Sealed db) (calls : List SecretCall) :
    Sealed (runSecretCalls db calls) := by
  induction calls generalizing db with
  | nil => exact hdb
  | cons call rest ih =>
      unfold runSecretCalls
      split
      · rename_i db' hrun
        exact ih (sealed_run hdb hrun)
      · exact ih hdb

/-- An opened secret has 32 bytes. -/
theorem length_openSecret {provider : MasterKeyProvider} {r : SecretVersionRow} {s : SigningSecret}
    (hr : r.ciphertext.length = 48) (h : openSecret provider r = .ok s) :
    s.material.length = 32 := by
  simp only [openSecret, bind_eq_ok, orRaise_eq_ok] at h
  obtain ⟨key, -, material, hmaterial, hs⟩ := h
  cases hs
  have hlen := AesGcm.length_decrypt _ _ _ _ _ hmaterial
  change material.length = 32
  omega

/-- The secrets of the relay are there, and long enough to sign with. -/
theorem eligibleForSigning_length {provider : MasterKeyProvider} {tenantId secretSetId : UUID}
    {now : Datetime} {db : SecretStore} {secrets : List SigningSecret} (hdb : Sealed db)
    (h : eligibleForSigning provider tenantId secretSetId now db = .ok secrets) :
    secrets ≠ [] ∧ ∀ s ∈ secrets, s.material.length = 32 := by
  simp only [eligibleForSigning, bind_eq_ok, check_eq_ok, decide_eq_true_eq] at h
  obtain ⟨-, hne, hmap⟩ := h
  constructor
  · rintro rfl
    cases hrows : eligibleVersions tenantId secretSetId now db with
    | nil => exact hne hrows
    | cons r rest =>
        rw [hrows, List.mapM_cons] at hmap
        obtain ⟨s, -, hrest⟩ := bind_eq_ok.mp hmap
        obtain ⟨ss, -, hcons⟩ := bind_eq_ok.mp hrest
        cases hcons
  · intro s hs
    obtain ⟨r, hr, hopen⟩ := mem_of_mapM hmap s hs
    rw [eligibleVersions, List.mem_insertionSort] at hr
    have hmem := (SecretStore.mem_versions.mp (List.mem_of_mem_filter hr)).1
    exact length_openSecret (hdb r hmem) hopen

end Sealed

/-! ## Signing with the eligible secrets -/

/-- Whether the whole seconds of a timestamp and a clock are as near as a verifier demands. -/
structure Near (timestamp current : Datetime) (age skew : Timedelta) : Prop where
  age : (current.epochSeconds - timestamp.epochSeconds) * 1000000 ≤ age
  skew : (timestamp.epochSeconds - current.epochSeconds) * 1000000 ≤ skew

/-- The relay can sign with whatever a set offers, and a receiver who holds one of its
secrets accepts the headers exactly when there are no more than eight. -/
theorem eligible_signatures_verify [Platform] (calls : List SecretCall)
    {provider : MasterKeyProvider} {tenantId secretSetId : UUID} {now : Datetime}
    {secrets : List SigningSecret} {messageId : Str} {timestamp : Datetime} {body : Bytes}
    {current : Datetime} {age skew : Timedelta} {secret : SigningSecret}
    (heligible : eligibleForSigning provider tenantId secretSetId now
      (runSecretCalls Table.empty calls) = .ok secrets)
    (hid : isMessageId messageId = true) (h0 : 0 ≤ timestamp) (hmax : timestamp ≤ Datetime.max)
    (hsecret : secret ∈ secrets) (htol : Tolerances age skew)
    (hnear : Near timestamp current age skew) :
    ∃ headers, signWebhook messageId timestamp body (secrets.map (·.material)) = .ok headers ∧
      (verifyWebhook secret.material body headers.values current age skew = .ok true ↔
        secrets.length ≤ 8) := by
  obtain ⟨hne, hlen⟩ := eligibleForSigning_length (sealed_runSecretCalls sealed_empty calls) heligible
  obtain ⟨htext, hvalue⟩ := isTimestamp_timestampText h0 hmax
  have hkeys : ∀ key ∈ secrets.map (·.material), 16 ≤ key.length := by
    intro key hkey
    obtain ⟨s, hs, rfl⟩ := List.mem_map.mp hkey
    rw [hlen s hs]
    norm_num
  have hcontent : signedContent _ _ body = .ok _ := signedContent_eq hid htext
  have hsign := signWebhook_eq_ok.mpr ⟨hid, hkeys, by simpa using hne, _, hcontent, rfl⟩
  have htimely : Timely (timestampText timestamp) current age skew := by
    have hage := hnear.age
    have hskew := hnear.skew
    constructor
    · rw [hvalue, toleranceSeconds_eq htol.age]
      exact (Int.le_ediv_iff_mul_le (by norm_num)).mpr hage
    · rw [hvalue, toleranceSeconds_eq htol.skew]
      exact (Int.le_ediv_iff_mul_le (by norm_num)).mpr hskew
  refine ⟨_, hsign, ?_⟩
  rw [verifyWebhook_signWebhook h0 hmax hsign (List.mem_map_of_mem hsecret) htol htimely,
    List.length_map, signatureLimit]

end Service

/-! ## A set rotated eight times in an overlap -/

namespace Rotation

scoped instance aesGcm : AesGcm where
  encrypt _ _ data _ := data ++ List.replicate 16 0
  decrypt? _ _ data _ := if 16 ≤ data.length then some (data.take (data.length - 16)) else none
  decrypt?_encrypt := by simp
  length_encrypt := by simp
  length_decrypt := by
    intro key nonce data associated plain h
    split_ifs at h with hlen
    cases h
    rw [List.length_take]
    omega

def masterKey : MasterKey := ⟨"k", List.replicate 16 0, by decide, by decide⟩

def provider : MasterKeyProvider := staticMasterKeyProvider [masterKey] "k"

def principal : Principal :=
  ⟨{ tenantId := 1, subjectId := "op", issuedAt := 0 }, by decide, by decide⟩

/-- The `n`-th version: its bytes are all `n`. -/
def draw (n : ℕ) : SecretDraw := ⟨Vector.replicate 32 (UInt8.ofNat n), Vector.replicate 12 0⟩

/-- One second apart, a set is created and rotated `n` times, with overlaps of a day. -/
def calls (n : ℕ) : List SecretCall :=
  .create provider principal 2 (draw 1) 0 :: (List.range n).map fun i =>
    .rotate provider principal 2 (Int.ofNat (i + 1)) 86400000000 (draw (i + 2))
      (Int.ofNat (i + 1) * 1000000)

/-- What the relay signs with then. -/
def secrets (n : ℕ) : List SigningSecret :=
  ((List.range (n + 1)).map fun i => ⟨i + 1, List.replicate 32 (UInt8.ofNat (i + 1))⟩).reverse

end Rotation

section Rotated

open Checksum Rotation

/-- With nine eligible secrets every receiver refuses the headers. -/
theorem nine_signatures_refused :
    eligibleForSigning provider 1 2 9000000 (runSecretCalls Table.empty (calls 8)) =
        .ok (secrets 8) ∧
      isMessageId "m" = true ∧ Tolerances 300000000 300000000 ∧
      Near 9000000 9000000 300000000 300000000 ∧
      ∀ secret ∈ secrets 8, (do
        let headers ← signWebhook "m" 9000000 [] ((secrets 8).map SigningSecret.material)
        verifyWebhook secret.material [] headers.values 9000000 300000000 300000000) =
          .ok false := by
  refine ⟨by decide +kernel, by decide, ⟨by decide, by decide⟩, ⟨by simp, by simp⟩, ?_⟩
  decide +kernel

theorem eligible_signatures_verify_rotated :
    ∃ headers, signWebhook "m" 9000000 [] ((secrets 1).map (·.material)) = .ok headers ∧
      (verifyWebhook (List.replicate 32 1) [] headers.values 9000000 300000000 300000000 =
        .ok true ↔ (secrets 1).length ≤ 8) :=
  have hmem : (⟨1, List.replicate 32 1⟩ : SigningSecret) ∈ secrets 1 := by decide
  have heligible : eligibleForSigning provider 1 2 9000000
      (runSecretCalls Table.empty (calls 1)) = .ok (secrets 1) := by decide +kernel
  eligible_signatures_verify (calls 1) heligible (by decide) (by decide) (by decide) hmem
    ⟨by decide, by decide⟩ ⟨by simp, by simp⟩

end Rotated

end FastapiEffects
