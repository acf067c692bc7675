import FastapiEffects.Webhooks.History

/-! # Versions and revisions

What every interleaving keeps of the history of subscriptions: the versions of each are
numbered without a gap up to the current one, rows other than heads stay as they are, and
every change of a head raises its revision.
-/

namespace FastapiEffects

open Python ReadCommitted

/-! ## Rows after a change -/

section Rows

variable {db : WebhookDb} {tenantId id : UUID}

theorem headAt_put_head (h : WebhookSubscriptionRow) :
    headAt (db.put (.subscription h)) tenantId id =
      if h.tenantId = tenantId ∧ h.subscriptionId = id then some h else headAt db tenantId id := by
  rw [headAt, Table.get_put]
  change Option.bind (if WebhookKey.subscription _ _ = .subscription _ _ then _ else _) _ = _
  simp only [WebhookKey.subscription.injEq]
  split_ifs
  · rfl
  · rfl

/-- Heads after a row of another table. -/
theorem headAt_put_other {row : WebhookRow} (h : row.subscription? = none) :
    headAt (db.put row) tenantId id = headAt db tenantId id := by
  rw [headAt, Table.get_put, if_neg]
  · rfl
  · intro hkey
    cases row with
    | subscription r => cases h
    | _ => cases hkey

theorem get_version_put_other {row : WebhookRow} (h : row.version? = none) (v : ℤ) :
    (db.put row).get (.version tenantId id v) = db.get (.version tenantId id v) := by
  rw [Table.get_put, if_neg]
  intro hkey
  cases row with
  | version r => cases h
  | _ => cases hkey

theorem get_audit_put_other {row : WebhookRow} (h : row.audit? = none) {auditId : UUID} :
    (db.put row).get (.audit tenantId auditId) = db.get (.audit tenantId auditId) := by
  rw [Table.get_put, if_neg]
  intro hkey
  cases row with
  | audit r => cases h
  | _ => cases hkey

theorem headAt_eq_none {tenantId id : UUID} :
    headAt db tenantId id = none ↔ db.get (.subscription tenantId id) = none := by
  unfold headAt
  cases hget : db.get (.subscription tenantId id) with
  | none => simp
  | some row =>
      have hkey : row.key = .subscription tenantId id := Table.key_of_get hget
      cases row with
      | subscription r => simp [WebhookRow.subscription?]
      | _ => cases hkey

end Rows

/-! ## Rows that stay -/

/-- The rows other than heads stay. -/
def RowsStay (db db' : WebhookDb) : Prop :=
  ∀ x row, db.get x = some row → row.subscription? = none → db'.get x = some row

theorem RowsStay.refl (db : WebhookDb) : RowsStay db db := fun _ _ h _ => h

theorem RowsStay.trans {db db' db'' : WebhookDb} (h : RowsStay db db') (h' : RowsStay db' db'') :
    RowsStay db db'' := fun x row hrow hother => h' x row (h x row hrow hother) hother

/-- A row is stored where there was none. -/
theorem RowsStay.put_fresh {db : WebhookDb} {row : WebhookRow} (h : db.get row.key = none) :
    RowsStay db (db.put row) := by
  intro x r hr _
  rw [Table.get_put, if_neg]
  · exact hr
  · rintro rfl
    cases h.symm.trans hr

theorem RowsStay.put_head {db : WebhookDb} (head : WebhookSubscriptionRow) :
    RowsStay db (db.put (.subscription head)) := by
  intro x r hr hother
  rw [Table.get_put, if_neg]
  · exact hr
  · rintro rfl
    have hkey : r.key = (WebhookRow.subscription head).key := Table.key_of_get hr
    cases r with
    | subscription r => cases hother
    | _ => cases hkey

/-! ## Numbered versions -/

/-- The versions of a subscription are those up to the current one, and no version is without
its subscription. -/
structure Numbered (db : WebhookDb) : Prop where
  positive : ∀ tenantId id head, headAt db tenantId id = some head → 1 ≤ head.currentVersion
  numbers : ∀ tenantId id head, headAt db tenantId id = some head →
    ∀ v, db.get (.version tenantId id v) ≠ none ↔ 1 ≤ v ∧ v ≤ head.currentVersion
  home : ∀ tenantId id, headAt db tenantId id = none →
    ∀ v, db.get (.version tenantId id v) = none

theorem numbered_empty : Numbered Table.empty := by
  constructor
  · intro tenantId id head h
    cases h
  · intro tenantId id head h
    cases h
  · intro tenantId id _ v
    rfl

section Numbered

variable {db : WebhookDb}

/-- A row of another table. -/
theorem Numbered.put_other (h : Numbered db) {row : WebhookRow} (hhead : row.subscription? = none)
    (hversion : row.version? = none) : Numbered (db.put row) := by
  constructor
  · intro tenantId id head
    rw [headAt_put_other hhead]
    exact h.positive tenantId id head
  · intro tenantId id head
    rw [headAt_put_other hhead]
    intro hget v
    rw [get_version_put_other hversion]
    exact h.numbers tenantId id head hget v
  · intro tenantId id
    rw [headAt_put_other hhead]
    intro hnone v
    rw [get_version_put_other hversion]
    exact h.home tenantId id hnone v

theorem Numbered.put_audit (h : Numbered db) (row : WebhookAuditRow) :
    Numbered (db.put (.audit row)) :=
  h.put_other rfl rfl

/-- A head that keeps its current version. -/
theorem Numbered.put_head (h : Numbered db) {tenantId id : UUID} {head head' : WebhookSubscriptionRow}
    (hget : headAt db tenantId id = some head) (htenant : head'.tenantId = tenantId)
    (hid : head'.subscriptionId = id) (hversion : head'.currentVersion = head.currentVersion) :
    Numbered (db.put (.subscription head')) := by
  constructor
  · intro t i g
    rw [headAt_put_head]
    split_ifs with hkey
    · rintro ⟨⟩
      rw [hversion]
      exact h.positive _ _ _ hget
    · exact h.positive t i g
  · intro t i g
    rw [headAt_put_head]
    split_ifs with hkey
    · rintro ⟨⟩ v
      rw [get_version_put_other rfl, hversion, ← hkey.1, ← hkey.2, htenant, hid]
      exact h.numbers _ _ _ hget v
    · intro hg v
      rw [get_version_put_other rfl]
      exact h.numbers t i g hg v
  · intro t i
    rw [headAt_put_head]
    split_ifs with hkey
    · rintro ⟨⟩
    · intro hnone v
      rw [get_version_put_other rfl]
      exact h.home t i hnone v

/-- A head under its next version, with that version. -/
theorem Numbered.put_next (h : Numbered db) {head' : WebhookSubscriptionRow}
    {version : WebhookSubscriptionVersionRow}
    (hbefore : ∀ v, db.get (.version head'.tenantId head'.subscriptionId v) ≠ none ↔
      1 ≤ v ∧ v ≤ head'.currentVersion - 1)
    (hpositive : 1 ≤ head'.currentVersion) (htenant : version.tenantId = head'.tenantId)
    (hid : version.subscriptionId = head'.subscriptionId)
    (hversion : version.version = head'.currentVersion) :
    Numbered ((db.put (.subscription head')).put (.version version)) := by
  have hget : ∀ t i v, ((db.put (.subscription head')).put (.version version)).get (.version t i v) =
      if head'.tenantId = t ∧ head'.subscriptionId = i ∧ head'.currentVersion = v then
        some (.version version) else db.get (.version t i v) := by
    intro t i v
    rw [Table.get_put]
    change (if WebhookKey.version _ _ _ = .version _ _ _ then _ else _) = _
    simp only [WebhookKey.version.injEq]
    rw [htenant, hid, hversion, get_version_put_other rfl]
  have hhead : ∀ t i, headAt ((db.put (.subscription head')).put (.version version)) t i =
      if head'.tenantId = t ∧ head'.subscriptionId = i then some head' else headAt db t i := by
    intro t i
    rw [headAt_put_other rfl, headAt_put_head]
  constructor
  · intro t i g
    rw [hhead]
    split_ifs
    · rintro ⟨⟩
      exact hpositive
    · exact h.positive t i g
  · intro t i g
    rw [hhead]
    split_ifs with hkey
    · rintro ⟨⟩ v
      rw [hget, ← hkey.1, ← hkey.2]
      split_ifs with hv
      · have hv := hv.2.2
        simp only [ne_eq, reduceCtorEq, not_false_eq_true, true_iff]
        omega
      · rw [hbefore]
        have hne : head'.currentVersion ≠ v := fun heq => hv ⟨rfl, rfl, heq⟩
        omega
    · intro hg v
      rw [hget, if_neg fun hv => hkey ⟨hv.1, hv.2.1⟩]
      exact h.numbers t i g hg v
  · intro t i
    rw [hhead]
    split_ifs with hkey
    · rintro ⟨⟩
    · intro hnone v
      rw [hget, if_neg fun hv => hkey ⟨hv.1, hv.2.1⟩]
      exact h.home t i hnone v

end Numbered

/-! ## What every effect keeps -/

section Effects

variable [Urllib] {db db' : WebhookDb} {op : WebhookOp}

omit [Urllib] in
theorem numbered_install_deliveries {rows : List DeliveryRow} {db : WebhookDb} (h : Numbered db) :
    Numbered (db.install (rows.map fun r => .put (.delivery r))) := by
  induction rows generalizing db with
  | nil => exact h
  | cons r rows ih =>
    have hput : Numbered (db.put (.delivery r)) := h.put_other rfl rfl
    exact ih hput

omit [Urllib] in
theorem Numbered.free_next {db : WebhookDb} (h : Numbered db) {tenantId id : UUID}
    {head : WebhookSubscriptionRow} (hget : headAt db tenantId id = some head) :
    db.get (.version tenantId id (head.currentVersion + 1)) = none := by
  by_contra hne
  have hle := ((h.numbers tenantId id head hget _).mp hne).2
  omega

theorem WebhookOp.Effect.numbered (h : op.Effect db db') (hnum : Numbered db) : Numbered db' := by
  cases op with
  | addSecretSet row =>
      obtain ⟨-, rfl⟩ := h
      exact hnum.put_other rfl rfl
  | create principal types url policy set now threshold =>
      obtain ⟨id, auditId, eventTypes, endpoint, json, -, -, hfree, -, -, rfl⟩ := h
      refine (hnum.put_next (fun v => ?_) le_rfl rfl rfl rfl).put_audit _
      change db.get (.version principal.tenantId id v) ≠ none ↔ 1 ≤ v ∧ v ≤ 1 - 1
      rw [hnum.home _ _ (headAt_eq_none.mpr hfree) v]
      constructor
      · intro hne
        exact absurd rfl hne
      · omega
  | update principal id revision types url policy set now =>
      obtain ⟨head, auditId, eventTypes, endpoint, json, -, hget, -, -, -, rfl⟩ := h
      obtain ⟨-, htenant, hid⟩ := get_of_headAt hget
      have hpositive := hnum.positive _ _ _ hget
      refine (hnum.put_next (fun v => ?_) ?_ htenant.symm hid.symm rfl).put_audit _
      · change db.get (.version head.tenantId head.subscriptionId v) ≠ none ↔
          1 ≤ v ∧ v ≤ head.currentVersion + 1 - 1
        rw [htenant, hid, hnum.numbers _ _ _ hget v, add_sub_cancel_right]
      · exact le_add_of_nonneg_of_le (by omega) le_rfl
  | setState principal id revision state now action =>
      obtain ⟨head, auditId, hget, -, -, rfl⟩ := h
      obtain ⟨-, htenant, hid⟩ := get_of_headAt hget
      apply Numbered.put_audit
      exact hnum.put_head hget htenant hid rfl
  | recordSuccess tenantId id now =>
      obtain ⟨head, hget, rfl⟩ := h
      obtain ⟨-, htenant, hid⟩ := get_of_headAt hget
      split_ifs
      · exact hnum
      · exact hnum.put_head hget htenant hid rfl
  | recordFailure tenantId id now =>
      obtain ⟨head, hget, h⟩ := h
      obtain ⟨-, htenant, hid⟩ := get_of_headAt hget
      split_ifs at h with hpauses
      · obtain ⟨auditId, -, rfl⟩ := h
        apply Numbered.put_audit
        exact hnum.put_head hget htenant hid rfl
      · rw [h]
        exact hnum.put_head hget htenant hid rfl
  | publish tenantId eventId eventType now =>
      obtain ⟨rows, -, rfl⟩ := h
      exact numbered_install_deliveries hnum

omit [Urllib] in
/-- An audit row after other changes. -/
theorem rowsStay_put_audit {db : WebhookDb} {tenantId auditId : UUID} {row : WebhookAuditRow}
    (htenant : row.tenantId = tenantId) (hid : row.auditId = auditId)
    (hfree : db.get (.audit tenantId auditId) = none) : RowsStay db (db.put (.audit row)) := by
  refine RowsStay.put_fresh ?_
  change db.get (.audit row.tenantId row.auditId) = none
  rw [htenant, hid]
  exact hfree

/-- No operation alters a version, an audit row, a secret set or a delivery. -/
theorem WebhookOp.Effect.rowsStay (h : op.Effect db db') : RowsStay db db' := by
  cases op with
  | addSecretSet row =>
      obtain ⟨hfree, rfl⟩ := h
      exact .put_fresh hfree
  | create principal types url policy set now threshold =>
      obtain ⟨id, auditId, eventTypes, endpoint, json, -, -, -, hversion, haudit, rfl⟩ := h
      refine ((RowsStay.put_head _).trans (.put_fresh ?_)).trans (rowsStay_put_audit rfl rfl ?_)
      · exact (get_version_put_other rfl _).trans hversion
      · rw [get_audit_put_other rfl, get_audit_put_other rfl]
        exact haudit
  | update principal id revision types url policy set now =>
      obtain ⟨head, auditId, eventTypes, endpoint, json, -, -, -, hversion, haudit, rfl⟩ := h
      refine ((RowsStay.put_head _).trans (.put_fresh ?_)).trans (rowsStay_put_audit rfl rfl ?_)
      · exact (get_version_put_other rfl _).trans hversion
      · rw [get_audit_put_other rfl, get_audit_put_other rfl]
        exact haudit
  | setState principal id revision state now action =>
      obtain ⟨head, auditId, -, -, haudit, rfl⟩ := h
      exact (RowsStay.put_head _).trans
        (rowsStay_put_audit rfl rfl ((get_audit_put_other rfl).trans haudit))
  | recordSuccess tenantId id now =>
      obtain ⟨head, -, rfl⟩ := h
      split_ifs
      · exact .refl db
      · exact .put_head _
  | recordFailure tenantId id now =>
      obtain ⟨head, hget, h⟩ := h
      obtain ⟨-, htenant, -⟩ := get_of_headAt hget
      split_ifs at h with hpauses
      · obtain ⟨auditId, haudit, rfl⟩ := h
        exact (RowsStay.put_head _).trans
          (rowsStay_put_audit htenant rfl ((get_audit_put_other rfl).trans haudit))
      · rw [h]
        exact .put_head _
  | publish tenantId eventId eventType now =>
      obtain ⟨rows, hfree, rfl⟩ := h
      intro x row hrow _
      rw [Table.get_install_of_forall_ne, hrow]
      intro v hv htarget
      obtain ⟨r, hr, rfl⟩ := List.mem_map.mp hv
      have hnone := hfree r hr
      change WebhookKey.delivery r.tenantId r.deliveryId = x at htarget
      rw [htarget, hrow] at hnone
      cases hnone

/-- The subscription and the revision an operation is given. -/
def WebhookOp.expects : WebhookOp → Option (UUID × UUID × ℤ)
  | .update principal id revision _ _ _ _ _ => some (principal.tenantId, id, revision)
  | .setState principal id revision _ _ _ => some (principal.tenantId, id, revision)
  | _ => none

/-- The revision was the given one, and is the next one. -/
theorem WebhookOp.Effect.revision (h : op.Effect db db') {tenantId id : UUID} {revision : ℤ}
    (hexpects : op.expects = some (tenantId, id, revision)) :
    ∃ head head', headAt db tenantId id = some head ∧ head.revision = revision ∧
      headAt db' tenantId id = some head' ∧ head'.revision = revision + 1 := by
  cases op with
  | update principal id' revision' types url policy set now =>
      cases hexpects
      obtain ⟨head, auditId, eventTypes, endpoint, json, -, hget, hrevision, -, -, rfl⟩ := h
      obtain ⟨-, htenant, hid⟩ := get_of_headAt hget
      refine ⟨head, { SubscriptionRepository.touched head principal now with
        currentVersion := head.currentVersion + 1 }, hget, hrevision, ?_, ?_⟩
      · rw [headAt_put_other rfl, headAt_put_other rfl, headAt_put_head]
        exact if_pos ⟨htenant, hid⟩
      · exact congrArg (· + 1) hrevision
  | setState principal id' revision' state now action =>
      cases hexpects
      obtain ⟨head, auditId, hget, hrevision, -, rfl⟩ := h
      obtain ⟨-, htenant, hid⟩ := get_of_headAt hget
      refine ⟨head, { SubscriptionRepository.touched head principal now with state }, hget, hrevision,
        ?_, ?_⟩
      · rw [headAt_put_other rfl, headAt_put_head]
        exact if_pos ⟨htenant, hid⟩
      · exact congrArg (· + 1) hrevision
  | _ => cases hexpects

theorem numbered_of_serial {log : List (Entry WebhookKey WebhookRow PyError WebhookOp WebhookOutcome)}
    (h : Serial webhookEffect log db) : Numbered db := by
  induction h with
  | nil => exact numbered_empty
  | snoc _ he ih =>
      unfold Applies at he
      split at he
      · exact he.numbered ih
      · rw [he]
        exact ih

end Effects

/-! ## Every interleaving -/

section Runs

variable [Platform] [Urllib] {now : Datetime} {w w' : WebhookWorld}

theorem webhooks_worldInv (hreach : Reachable webhooks (WebhookWorld.start now) w) :
    WorldInv webhookDiscipline w :=
  serial_worldInv webhooks_sound ⟨rfl, fun _ => rfl⟩ rfl rfl hreach

/-- Whatever the order of the statements, the rows are those the committed operations make one
after another; the versions of a subscription are those up to the current one; no step alters a
version or a delivery; and an operation that is given a revision commits only on that revision,
which it raises by one. -/
theorem subscription_history (hreach : Reachable webhooks (WebhookWorld.start now) w)
    (hstep : Step webhooks w w') :
    Serial webhookEffect w.store.log w.store.db ∧
    (∀ tenantId id head, headAt w.store.db tenantId id = some head →
      ∀ v, w.store.db.get (.version tenantId id v) ≠ none ↔ 1 ≤ v ∧ v ≤ head.currentVersion) ∧
    RowsStay w.store.db w'.store.db ∧
    ((w'.store.db = w.store.db ∧ w'.store.log = w.store.log) ∨
      ∃ e, w'.store.log = w.store.log ++ [e] ∧
        (∀ err, e.result = .error err → w'.store.db = w.store.db) ∧
        ∀ a, e.result = .ok a → e.op.Effect w.store.db w'.store.db ∧
          ∀ tenantId id revision, e.op.expects = some (tenantId, id, revision) →
            ∃ head head', headAt w.store.db tenantId id = some head ∧ head.revision = revision ∧
              headAt w'.store.db tenantId id = some head' ∧ head'.revision = revision + 1) := by
  have hinv := webhooks_worldInv hreach
  have hserial : Serial webhookEffect w.store.log w.store.db := hinv.inv
  refine ⟨hserial, (numbered_of_serial hserial).numbers, ?stay, ?step⟩
  case stay =>
    rcases applies_of_step hinv hstep with ⟨hdb, -⟩ | ⟨e, -, he⟩
    · rw [hdb]
      exact .refl _
    · unfold Applies at he
      split at he
      · exact WebhookOp.Effect.rowsStay he
      · rw [he]
        exact .refl _
  case step =>
    refine (applies_of_step hinv hstep).imp_right ?_
    rintro ⟨e, hlog, he⟩
    unfold Applies at he
    refine ⟨e, hlog, fun err herr => ?_, fun a ha => ?_⟩
    · rw [herr] at he
      exact he
    · rw [ha] at he
      have heffect : e.op.Effect w.store.db w'.store.db := he
      exact ⟨heffect, fun tenantId id revision hexpects => heffect.revision hexpects⟩

end Runs

/-! A small history: one subscription of tenant 1, created and updated. -/

namespace Subscribing

open Checksum

scoped instance urllib : Urllib where
  urlsplit _ := some ⟨"https", "a", "/", [], [], none, none, some "a", none⟩
  urlunsplit _ _ _ _ _ := "https://a/"
  urljoin _ url := some url
  quote _ s := some s
  idna s := some s

def policy : RetryPolicy :=
  ⟨{ name := "webhook"
     maximumElapsedSeconds := 1000
     baseDelaySeconds := .int 1
     maximumDelaySeconds := .int 2
     handlerTimeoutSeconds := .int 3
     leaseDurationSeconds := .int 4 }, by decide +kernel⟩

def principal : Principal :=
  ⟨{ tenantId := 1, subjectId := "s", issuedAt := 0 }, by decide, by decide +kernel⟩

def secretSet : SecretSetRow := ⟨1, 2, 1, "s", 0, 0⟩

/-- Subscription 3 of secret set 2, which one failure pauses. -/
def created : List (Act UUID WebhookOp) :=
  [.start (.addSecretSet secretSet), .step 0, .step 0,
    .start (.create principal ["e"] "https://a/" policy 2 0 1), .step 1, .mint 1 3, .mint 1 4,
    .step 1, .step 1, .step 1, .step 1]

/-- An update of revision 1, which has only to commit. -/
def updating : List (Act UUID WebhookOp) :=
  created ++ [.start (.update principal 3 1 ["f"] "https://a/" policy 2 0), .step 2, .step 2,
    .mint 2 5, .step 2, .step 2, .step 2]

end Subscribing

open Checksum Subscribing in
/-- The update raises the revision to 2. -/
theorem subscription_history_updating : ∃ (w w' : WebhookWorld) (head head' : WebhookSubscriptionRow),
    RowsStay w.store.db w'.store.db ∧ headAt w.store.db 1 3 = some head ∧ head.revision = 1 ∧
      headAt w'.store.db 1 3 = some head' ∧ head'.revision = 2 ∧ head'.currentVersion = 2 ∧
      w'.store.db.get (.version 1 3 2) ≠ none := by
  have hrun : ((WebhookWorld.start 0).run webhooks updating).any (fun w =>
      (w.act webhooks (.step 2)).any fun w' =>
        (headAt w.store.db 1 3).any fun head => (headAt w'.store.db 1 3).any fun head' =>
          head.revision = 1 ∧ head'.revision = 2 ∧ head'.currentVersion = 2 ∧
            (w'.store.db.get (.version 1 3 2)).isSome) = true := by
    decide +kernel
  simp only [Option.any_eq_true, decide_eq_true_eq] at hrun
  obtain ⟨w, hw, w', hw', head, hhead, head', hhead', h1, h2, hversion, hstored⟩ := hrun
  have hhistory := subscription_history (World.run_reachable hw) (World.step_of_act hw')
  exact ⟨w, w', head, head', hhistory.2.2.1, hhead, h1, hhead', h2, hversion,
    Option.isSome_iff_ne_none.mp hstored⟩

end FastapiEffects
