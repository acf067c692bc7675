import FastapiEffects.ReadCommitted.Limit
import FastapiEffects.Webhooks.Secrets
import Mathlib.Data.Prod.Lex

/-! # Webhook retention

`WebhookOperations.retain` and the last statement of `prune_webhook_history`, which
removes secret versions. The statements before it touch no secret.
-/

namespace FastapiEffects

open Python ReadCommitted

/-- `require_webhook_management`. -/
def requireWebhookManagement (principal : Principal) : Except PyError Unit :=
  check (principal.scopes.contains "webhooks:manage" ||
      principal.scopes.contains "fastapi_effects:operator")
    (.authorizationDenied "Webhook operation requires management authority.")

/-- The versions a run of the retention may remove. -/
def SecretVersionRow.prunable (r : SecretVersionRow) (tenantId : UUID) (cutoff : Datetime) : Bool :=
  r.tenantId = tenantId ∧ (r.state = .retiring ∨ r.state = .revoked) ∧ r.createdAt < cutoff

/-- `ORDER BY s.created_at, s.secret_set_id, s.secret_version`. -/
def SecretVersionRow.age (r : SecretVersionRow) : ℤ ×ₗ ℕ ×ₗ ℤ :=
  toLex (r.createdAt, toLex (r.secretSetId.toNat, r.secretVersion))

/-- The versions of all sets that a run may remove. -/
def prunableVersions (tenantId : UUID) (cutoff : Datetime) (db : SecretStore) :
    List SecretVersionRow :=
  (db.rows.filterMap SecretRow.version?).filter (·.prunable tenantId cutoff)

/-- `prune_webhook_history`, called under the tenant `context`, while other transactions
hold the `locked` versions: how many versions it removes, and the store it leaves. -/
def pruneWebhookHistory (context : Str) (tenantId : UUID) (cutoff : Datetime) (batch : ℤ)
    (locked : SecretVersionRow → Bool) (db : SecretStore) : Except PyError (ℕ × SecretStore) := do
  check (context = tenantId.str) .data
  check (1 ≤ batch ∧ batch ≤ 10000) .data
  let removed :=
    limitSkipLocked SecretVersionRow.age batch.toNat locked (prunableVersions tenantId cutoff db)
  return (removed.length, removed.foldl (fun db r => db.erase (SecretRow.version r).key) db)

/-- `WebhookOperations.retain` on a session that is in a transaction or not. -/
def retainWebhooks (principal : Principal) (inTransaction : Bool) (before : Datetime) (batch : ℤ)
    (locked : SecretVersionRow → Bool) (db : SecretStore) : Except PyError (ℕ × SecretStore) := do
  requireWebhookManagement principal
  check (!inTransaction) (.configuration "Webhook retention requires an idle session.")
  check (1 ≤ batch ∧ batch ≤ 10000)
    (.configuration "Webhook retention batch size is invalid.")
  pruneWebhookHistory principal.tenantId.str principal.tenantId before batch locked db

/-! ## What a run removes -/

/-- The rows left after removing some versions. -/
theorem mem_foldl_erase {removed : List SecretVersionRow} {db : SecretStore} {row : SecretRow} :
    row ∈ (removed.foldl (fun db r => db.erase (SecretRow.version r).key) db).rows ↔
      row ∈ db.rows ∧ ∀ r ∈ removed, row.key ≠ (SecretRow.version r).key := by
  induction removed generalizing db with
  | nil => simp
  | cons r removed ih =>
      rw [List.foldl_cons, ih, Table.mem_erase, List.forall_mem_cons, and_assoc]
      rfl

theorem mem_prunableVersions {tenantId : UUID} {cutoff : Datetime} {db : SecretStore}
    {r : SecretVersionRow} : r ∈ prunableVersions tenantId cutoff db ↔
      SecretRow.version r ∈ db.rows ∧ r.prunable tenantId cutoff = true := by
  rw [prunableVersions, List.mem_filter, SecretStore.mem_filterMap_version]

/-- The versions of a tenant have different places in the order. -/
theorem pairwise_age {tenantId : UUID} {cutoff : Datetime} {db : SecretStore} :
    (prunableVersions tenantId cutoff db).Pairwise fun r r' => r.age ≠ r'.age := by
  have hkeys : (db.rows.filterMap SecretRow.version?).Pairwise fun r r' =>
      (SecretRow.version r).key ≠ (SecretRow.version r').key := by
    refine (List.pairwise_map.mp db.nodup).filterMap _ fun row row' hne r hr r' hr' => ?_
    cases row with
    | set _ => cases hr
    | version _ =>
        cases row' with
        | set _ => cases hr'
        | version _ =>
            cases hr
            cases hr'
            exact hne
  refine (hkeys.filter _).imp_of_mem fun hr hr' hne hage => hne ?_
  have htenant := (of_decide_eq_true (List.mem_filter.mp hr).2).1
  have htenant' := (of_decide_eq_true (List.mem_filter.mp hr').2).1
  simp only [SecretVersionRow.age, toLex_inj, Prod.mk.injEq] at hage
  simp only [SecretRow.key, SecretKey.version.injEq]
  exact ⟨htenant.trans htenant'.symm, BitVec.eq_of_toNat_eq hage.2.1, hage.2.2⟩

/-- What a run removes: of the versions it may remove and nobody holds, those with fewer
than `batch` older ones. -/
theorem retainWebhooks_removes {principal : Principal} {inTransaction : Bool} {before : Datetime}
    {batch : ℤ} {locked : SecretVersionRow → Bool} {db db' : SecretStore} {n : ℕ}
    (h : retainWebhooks principal inTransaction before batch locked db = .ok (n, db'))
    {r : SecretVersionRow} (hr : SecretRow.version r ∈ db.rows) :
    SecretRow.version r ∉ db'.rows ↔
      r.prunable principal.tenantId before = true ∧ locked r = false ∧
      ((prunableVersions principal.tenantId before db).countP fun a =>
        !locked a && a.age < r.age) < batch := by
  simp only [retainWebhooks, pruneWebhookHistory, bind_eq_ok, check_eq_ok, decide_eq_true_eq] at h
  obtain ⟨-, -, -, -, -, hbatch, -, -, -, -, hresult⟩ := h
  cases hresult
  rw [mem_foldl_erase, not_and, not_forall]
  have hremoved : (∃ r', ¬ (r' ∈ limitSkipLocked SecretVersionRow.age batch.toNat locked
      (prunableVersions principal.tenantId before db) →
        (SecretRow.version r).key ≠ (SecretRow.version r').key)) ↔
      r ∈ limitSkipLocked SecretVersionRow.age batch.toNat locked
        (prunableVersions principal.tenantId before db) := by
    constructor
    · rintro ⟨r', hr'⟩
      push Not at hr'
      have hmem := (mem_prunableVersions.mp ((mem_limitSkipLocked pairwise_age).mp hr'.1).1).1
      cases Table.eq_of_key_eq hr hmem hr'.2
      exact hr'.1
    · intro hmem
      exact ⟨r, fun himp => himp hmem rfl⟩
  rw [hremoved, mem_limitSkipLocked pairwise_age, mem_prunableVersions]
  have hcast : ∀ k : ℕ, k < batch.toNat ↔ (k : ℤ) < batch := by
    intro k
    omega
  rw [hcast]
  constructor
  · intro h
    obtain ⟨⟨-, hprunable⟩, hlocked, hrank⟩ := h hr
    exact ⟨hprunable, hlocked, hrank⟩
  · rintro ⟨hprunable, hlocked, hrank⟩ -
    exact ⟨⟨hr, hprunable⟩, hlocked, hrank⟩

/-! ## Keys in use -/

/-- A run of the retention at `t` removes no version the relay may sign with at `t` or
later exactly when every retiring version that is still in its overlap, created before the
cutoff and held by nobody has at least `batch` older versions before it. -/
theorem retain_keeps_eligible {principal : Principal} {inTransaction : Bool} {before : Datetime}
    {batch : ℤ} {locked : SecretVersionRow → Bool} {db db' : SecretStore} {n : ℕ} {t : Datetime}
    (h : retainWebhooks principal inTransaction before batch locked db = .ok (n, db')) :
    (∀ r, SecretRow.version r ∈ db.rows → SecretRow.version r ∉ db'.rows →
        ∀ now, t ≤ now → r.eligible now = false) ↔
      ∀ r, SecretRow.version r ∈ db.rows → r.tenantId = principal.tenantId → r.state = .retiring →
        (∃ until_ ∈ r.retiringUntil, t ≤ until_) → r.createdAt < before → locked r = false →
        batch ≤ (prunableVersions principal.tenantId before db).countP fun a =>
          !locked a && a.age < r.age := by
  constructor
  · rintro hkeep r hr htenant hstate ⟨until_, huntil, hle⟩ hcreated hlocked
    by_contra hrank
    have hprunable : r.prunable principal.tenantId before = true :=
      decide_eq_true ⟨htenant, Or.inl hstate, hcreated⟩
    have hremoved := (retainWebhooks_removes h hr).mpr ⟨hprunable, hlocked, by omega⟩
    have heligible : r.eligible t = true := by
      refine decide_eq_true (Or.inr ⟨hstate, ?_⟩)
      rw [Option.mem_def.mp huntil]
      exact decide_eq_true hle
    rw [hkeep r hr hremoved t le_rfl] at heligible
    cases heligible
  · intro hsafe r hr hremoved now hnow
    obtain ⟨hprunable, hlocked, hrank⟩ := (retainWebhooks_removes h hr).mp hremoved
    obtain ⟨htenant, hstate, hcreated⟩ := of_decide_eq_true hprunable
    by_contra heligible
    rcases of_decide_eq_true (Bool.not_eq_false _ ▸ heligible) with hactive | ⟨hretiring, huntil⟩
    · rcases hstate with hstate | hstate <;> rw [hactive] at hstate <;> cases hstate
    · obtain ⟨until_, heq, hle⟩ := (Option.any_eq_true _ _).mp huntil
      have hrank' := hsafe r hr htenant hretiring
        ⟨until_, heq, hnow.trans (of_decide_eq_true hle)⟩ hcreated hlocked
      omega

/-! ## A retention in an overlap -/

section Overlap

open Checksum Rotation

/-- An operator of webhooks. -/
def Rotation.operator : Principal :=
  ⟨{ tenantId := 1, subjectId := "op", scopes := ["webhooks:manage"], issuedAt := 0 },
    by decide, by decide⟩

/-- A set of the first second, rotated a hundred days later with an overlap of thirty. -/
def Rotation.late : List SecretCall :=
  [.create provider principal 2 (draw 1) 1000000,
    .rotate provider principal 2 1 (30 * 86400000000) (draw 2) (100 * 86400000000)]

/-- The day after the rotation the relay signs with both versions, and a retention with a
cutoff ten days back removes the old one. -/
theorem retain_removes_eligible :
    (eligibleVersions 1 2 (101 * 86400000000) (runSecretCalls Table.empty late)).map
        (·.secretVersion) = [2, 1] ∧
      ((retainWebhooks operator false (91 * 86400000000) 500 (fun _ => false)
        (runSecretCalls Table.empty late)).map fun result =>
          (result.1, (eligibleVersions 1 2 (101 * 86400000000) result.2).map (·.secretVersion))) =
        .ok (1, [2]) := by
  constructor <;> decide +kernel

/-- A retention up to the first second leaves both versions. -/
theorem retain_keeps_eligible_late : ∃ result,
    retainWebhooks operator false 1000000 500 (fun _ => false) (runSecretCalls Table.empty late) =
        .ok result ∧
      ∀ r, SecretRow.version r ∈ (runSecretCalls Table.empty late).rows →
        SecretRow.version r ∉ result.2.rows → ∀ now, 101 * 86400000000 ≤ now →
        r.eligible now = false := by
  have hok : (retainWebhooks operator false 1000000 500 (fun _ => false)
      (runSecretCalls Table.empty late)).isOk = true := by decide +kernel
  have hcreated : (runSecretCalls Table.empty late).rows.all (fun row =>
      row.version?.all fun r => 1000000 ≤ r.createdAt) = true := by decide +kernel
  cases hresult : retainWebhooks operator false 1000000 500 (fun _ => false)
      (runSecretCalls Table.empty late) with
  | error e =>
      rw [hresult] at hok
      cases hok
  | ok result =>
      refine ⟨result, rfl, (retain_keeps_eligible hresult).mpr ?_⟩
      rintro r hr - - - hbefore -
      have hge : 1000000 ≤ r.createdAt :=
        of_decide_eq_true (List.all_eq_true.mp hcreated _ hr)
      exact absurd hbefore (not_lt.mpr hge)

end Overlap

end FastapiEffects
