import FastapiEffects.ReadCommitted.Caller
import FastapiEffects.ReadCommitted.Ranked
import FastapiEffects.Runtime.Claim

/-! # Fairness of a claim

One claim with no other in its way: which due deliveries it selects, in which order, and what
becomes of each. The query bounds the selection, so the counters of the loop never stop it, and a
selected delivery whose deadline has passed takes its place without a claim.
-/

namespace FastapiEffects

open Python ReadCommitted

/-! ## The selection -/

/-- A delivery that waits and whose time has come. -/
def DeliveryRow.Due (selectionTime : Datetime) (d : DeliveryRow) : Prop :=
  d.claimable = true ∧ d.nextAttemptAt ≤ selectionTime

/-- What a claim may select of the deliveries of a store: due ones, within both bounds. A due
delivery is left out only for the rank it has in its tenant or for the limit. -/
structure Selection (t : Db) (selectionTime : Datetime) (batchSize perTenant : ℤ)
    (selected : List DeliveryRow) : Prop where
  distinct : selected.Pairwise fun d d' => d.key ≠ d'.key
  stored : ∀ d ∈ selected, Row.delivery d ∈ t.rows
  due : ∀ d ∈ selected, d.Due selectionTime
  overall : (selected.length : ℤ) ≤ batchSize
  fair : ∀ tenantId, (selected.countP (fun d => d.tenantId = tenantId) : ℤ) ≤ perTenant
  left : ∀ d, Row.delivery d ∈ t.rows → d.Due selectionTime → d ∉ selected →
    (∃ before : List DeliveryRow, (before ++ [d]).Nodup ∧ (before.length : ℤ) = perTenant ∧
      ∀ b ∈ before, Row.delivery b ∈ t.rows ∧ b.Due selectionTime ∧ b.tenantId = d.tenantId ∧
        b.dueBefore d = true) ∨
    ((selected.length : ℤ) = batchSize ∧ ∀ b ∈ selected, b.claimedBefore d = true)

theorem withinRank_eq_ranked (perTenant : ℕ) (earlier : List UUID) (rows : List DeliveryRow) :
    withinRank perTenant earlier rows = ranked DeliveryRow.tenantId perTenant earlier rows := by
  induction rows generalizing earlier with
  | nil => rfl
  | cons r rs ih => simp only [withinRank, ranked, ih]

theorem pairwise_dueBefore (rows : List DeliveryRow) :
    (rows.insertionSort fun a b => a.dueBefore b).Pairwise fun a b => a.dueBefore b = true := by
  have htotal : Std.Total fun a b : DeliveryRow => a.dueBefore b = true := by
    constructor
    intro a b
    simp only [DeliveryRow.dueBefore, decide_eq_true_eq]
    rcases lt_trichotomy a.nextAttemptAt b.nextAttemptAt with h | h | h
    · exact Or.inl (Or.inl h)
    · rcases le_total a.createdAt b.createdAt with hc | hc
      · exact Or.inl (Or.inr ⟨h, hc⟩)
      · exact Or.inr (Or.inr ⟨h.symm, hc⟩)
    · exact Or.inr (Or.inl h)
  have htrans : IsTrans DeliveryRow fun a b => a.dueBefore b = true := by
    constructor
    intro a b c
    simp only [DeliveryRow.dueBefore, decide_eq_true_eq]
    rintro (h | ⟨h, hc⟩) (h' | ⟨h', hc'⟩)
    · exact Or.inl (h.trans h')
    · exact Or.inl (h'.symm ▸ h)
    · exact Or.inl (h ▸ h')
    · exact Or.inr ⟨h.trans h', hc.trans hc'⟩
  exact List.pairwise_insertionSort _ _

theorem pairwise_claimedBefore (rows : List DeliveryRow) :
    (rows.insertionSort fun a b => a.claimedBefore b).Pairwise
      fun a b => a.claimedBefore b = true := by
  have htotal : Std.Total fun a b : DeliveryRow => a.claimedBefore b = true := by
    constructor
    intro a b
    simp only [DeliveryRow.claimedBefore, decide_eq_true_eq]
    rcases lt_trichotomy a.nextAttemptAt b.nextAttemptAt with h | h | h
    · exact Or.inl (Or.inl h)
    · rcases lt_trichotomy a.createdAt b.createdAt with hc | hc | hc
      · exact Or.inl (Or.inr ⟨h, Or.inl hc⟩)
      · rcases BitVec.le_total a.tenantId b.tenantId with ht | ht
        · exact Or.inl (Or.inr ⟨h, Or.inr ⟨hc, ht⟩⟩)
        · exact Or.inr (Or.inr ⟨h.symm, Or.inr ⟨hc.symm, ht⟩⟩)
      · exact Or.inr (Or.inr ⟨h.symm, Or.inl hc⟩)
    · exact Or.inr (Or.inl h)
  have htrans : IsTrans DeliveryRow fun a b => a.claimedBefore b = true := by
    constructor
    intro a b c
    simp only [DeliveryRow.claimedBefore, decide_eq_true_eq]
    rintro (h | ⟨h, hc⟩) (h' | ⟨h', hc'⟩)
    · exact Or.inl (h.trans h')
    · exact Or.inl (h'.symm ▸ h)
    · exact Or.inl (h ▸ h')
    · refine Or.inr ⟨h.trans h', ?_⟩
      rcases hc with hc | ⟨hc, ht⟩
      · rcases hc' with hc' | ⟨hc', -⟩
        · exact Or.inl (hc.trans hc')
        · exact Or.inl (hc' ▸ hc)
      · rcases hc' with hc' | ⟨hc', ht'⟩
        · exact Or.inl (hc ▸ hc')
        · exact Or.inr ⟨hc.trans hc', BitVec.le_trans ht ht'⟩
  exact List.pairwise_insertionSort _ _

theorem mem_deliveries {t : Db} {d : DeliveryRow} :
    d ∈ t.rows.filterMap Row.delivery? ↔ Row.delivery d ∈ t.rows := by
  rw [List.mem_filterMap]
  constructor
  · rintro ⟨row, hrow, hd⟩
    cases row <;> simp [Row.delivery?] at hd
    exact hd ▸ hrow
  · intro hrow
    exact ⟨.delivery d, hrow, rfl⟩

/-- What the query of a claim lists, up to the limit, is a selection. -/
theorem selection_claimCandidates (t : Db) (selectionTime : Datetime) {batchSize perTenant : ℤ}
    (hbatch : 1 ≤ batchSize) (htenant : 1 ≤ perTenant) :
    Selection t selectionTime batchSize perTenant
      ((claimCandidates selectionTime perTenant.toNat (t.rows.filterMap Row.delivery?)).take
        batchSize.toNat) := by
  obtain ⟨due, hdue⟩ : ∃ due, due = (t.rows.filterMap Row.delivery?).filter
    fun r => r.claimable && r.nextAttemptAt ≤ selectionTime := ⟨_, rfl⟩
  obtain ⟨first, hfirst⟩ : ∃ first, first = ranked DeliveryRow.tenantId perTenant.toNat []
    (due.insertionSort fun a b => a.dueBefore b) := ⟨_, rfl⟩
  have hcandidates : claimCandidates selectionTime perTenant.toNat
      (t.rows.filterMap Row.delivery?) = first.insertionSort fun a b => a.claimedBefore b := by
    rw [hfirst, hdue, ← withinRank_eq_ranked]
    rfl
  have hmem : ∀ d, d ∈ due ↔ Row.delivery d ∈ t.rows ∧ d.Due selectionTime := by
    intro d
    rw [hdue, List.mem_filter, mem_deliveries, DeliveryRow.Due, Bool.and_eq_true,
      decide_eq_true_eq]
  have hsub : ∀ d ∈ first, d ∈ due := by
    intro d hd
    rw [hfirst] at hd
    exact (List.mem_insertionSort _).mp ((ranked_sublist _ _ _ _).subset hd)
  have hselected : ∀ d ∈ (first.insertionSort fun a b => a.claimedBefore b).take batchSize.toNat,
      d ∈ due := fun d hd => hsub d ((List.mem_insertionSort _).mp (List.mem_of_mem_take hd))
  have hkeys := pairwise_claimCandidates selectionTime perTenant.toNat
    (pairwise_key_deliveries (List.Perm.refl t.rows))
  rw [hcandidates] at hkeys ⊢
  refine ⟨hkeys.sublist (List.take_sublist _ _), fun d hd => ((hmem d).mp (hselected d hd)).1,
    fun d hd => ((hmem d).mp (hselected d hd)).2, ?_, ?_, ?_⟩
  · have hle := List.length_take_le batchSize.toNat (first.insertionSort fun a b => a.claimedBefore b)
    omega
  · intro tenantId
    have hcount := countP_ranked_le DeliveryRow.tenantId perTenant.toNat tenantId []
      (due.insertionSort fun a b => a.dueBefore b)
    rw [← hfirst, List.count_nil, Nat.sub_zero] at hcount
    have htake := (List.take_sublist batchSize.toNat
      (first.insertionSort fun a b => a.claimedBefore b)).countP_le
        (p := fun d => decide (d.tenantId = tenantId))
    rw [(List.perm_insertionSort _ first).countP_eq] at htake
    omega
  · intro d hrow hd hout
    have hdmem := (hmem d).mpr ⟨hrow, hd⟩
    by_cases hin : d ∈ first
    · -- ranked among the first of its tenant, so the limit left it out
      right
      have htake := not_mem_take (pairwise_claimedBefore first)
        ((List.mem_insertionSort _).mpr hin) hout
      refine ⟨?_, htake.2⟩
      rw [htake.1]
      omega
    · left
      rw [hfirst] at hin
      rcases exists_before_of_not_mem_ranked (pairwise_dueBefore due)
        ((List.mem_insertionSort _).mpr hdmem) hin with ⟨before, hbefore, hlength, hall⟩
      refine ⟨before, ?_, by omega, ?_⟩
      · have hnodup : due.Nodup := by
          rw [hdue]
          refine List.Nodup.filter _ ?_
          exact (pairwise_key_deliveries (List.Perm.refl t.rows)).imp
            fun hne heq => hne (congrArg DeliveryRow.key heq)
        exact hbefore.nodup ((List.perm_insertionSort _ _).nodup_iff.mpr hnodup)
      · intro b hb
        have hbdue := (hmem b).mp ((List.mem_insertionSort _).mp
          (hbefore.subset (List.mem_append_left _ hb)))
        exact ⟨hbdue.1, hbdue.2, hall b hb⟩

/-! ## What becomes of a selection -/

/-- The deadline a claim reads off a delivery. -/
def DeliveryRow.HasDeadline (d : DeliveryRow) (deadline : Datetime) : Prop :=
  ∃ policy, snapshotPolicy d.routeSnapshot = .ok policy ∧
    deliveryDeadline policy d.createdAt = .ok deadline

/-- The attempt a claim starts, by its key. -/
def ClaimedDelivery.attemptKey (c : ClaimedDelivery) : Key :=
  .attempt c.delivery.tenantId c.attempt.attemptId

/-- The delivery a claim is of, by its key. -/
def ClaimedDelivery.deliveryKey (c : ClaimedDelivery) : Key :=
  .delivery c.delivery.tenantId c.delivery.deliveryId

/-- A claim leases a delivery under a new token and starts a new attempt, before the deadline of
the delivery. -/
structure ClaimedDelivery.Takes (c : ClaimedDelivery) (t t' : Db) (effectiveNow : Datetime)
    (d : DeliveryRow) : Prop where
  delivery : c.deliveryKey = d.key
  early : ∃ deadline, d.HasDeadline deadline ∧ effectiveNow < deadline
  leased : ∃ policy leaseExpiresAt, snapshotPolicy d.routeSnapshot = .ok policy ∧
    leaseExpiry policy effectiveNow = .ok leaseExpiresAt ∧
    t'.get d.key = some (.delivery (leasedDelivery d c.leaseToken leaseExpiresAt effectiveNow))
  fresh : t.get c.attemptKey = none
  started : t'.get c.attemptKey =
    some (.attempt (startedAttempt d c.attempt.attemptId c.leaseToken effectiveNow))

/-- What becomes of the selected deliveries of a store, and of all other rows. -/
structure Processed (t t' : Db) (effectiveNow : Datetime) (selected : List DeliveryRow)
    (claims : List ClaimedDelivery) : Prop where
  order : (claims.map ClaimedDelivery.deliveryKey).Sublist (selected.map DeliveryRow.key)
  takes : ∀ c ∈ claims, ∃ d ∈ selected, c.Takes t t' effectiveNow d
  settled : ∀ d ∈ selected, ∃ deadline, d.HasDeadline deadline ∧
    (deadline ≤ effectiveNow →
      t'.get d.key = some (.delivery (expiredDelivery d effectiveNow))) ∧
    (effectiveNow < deadline → ∃ c ∈ claims, c.Takes t t' effectiveNow d)
  others : ∀ x, (∀ d ∈ selected, d.key ≠ x) → (∀ c ∈ claims, c.attemptKey ≠ x) →
    t'.get x = t.get x

theorem DeliveryRow.key_ne_attemptKey (d : DeliveryRow) (c : ClaimedDelivery) :
    d.key ≠ c.attemptKey := by
  intro h
  cases h

section Steps

variable {t t₁ t' : Db} {now deadline : Datetime} {d : DeliveryRow} {selected : List DeliveryRow}
  {claims : List ClaimedDelivery} {c : ClaimedDelivery}

theorem Processed.nil (t : Db) (now : Datetime) : Processed t t now [] [] where
  order := List.Sublist.refl _
  takes := by
    intro c hc
    cases hc
  settled := by
    intro d hd
    cases hd
  others := fun _ _ _ => rfl

/-- A claim of a later delivery is one from the start, where its attempt is new as well. -/
theorem ClaimedDelivery.Takes.before (h : c.Takes t₁ t' now d)
    (hrow : t₁.get c.attemptKey = none → t.get c.attemptKey = none) : c.Takes t t' now d :=
  { h with fresh := hrow h.fresh }

/-- A delivery past its deadline is dead before the rest is processed. -/
theorem Processed.expire (hdeadline : d.HasDeadline deadline) (hlate : deadline ≤ now)
    (hd : ∀ d' ∈ selected, d.key ≠ d'.key)
    (h : Processed (t.put (.delivery (expiredDelivery d now))) t' now selected claims) :
    Processed t t' now (d :: selected) claims := by
  have hput : ∀ x, (t.put (.delivery (expiredDelivery d now))).get x =
      if d.key = x then some (.delivery (expiredDelivery d now)) else t.get x :=
    fun x => Table.get_put _ _ _
  have hbefore : ∀ {c : ClaimedDelivery} {d' : DeliveryRow},
      c.Takes (t.put (.delivery (expiredDelivery d now))) t' now d' → c.Takes t t' now d' := by
    intro c d' hc
    refine hc.before fun hnone => ?_
    rwa [hput, if_neg (d.key_ne_attemptKey c)] at hnone
  constructor
  · exact h.order.cons d.key
  · intro c hc
    rcases h.takes c hc with ⟨d', hd', htakes⟩
    exact ⟨d', List.mem_cons_of_mem d hd', hbefore htakes⟩
  · intro d' hd'
    rcases List.mem_cons.mp hd' with rfl | hd'
    · refine ⟨deadline, hdeadline, fun _ => ?_, fun hearly => absurd hearly (not_lt.mpr hlate)⟩
      rw [h.others d'.key (fun d'' hd'' => (hd d'' hd'').symm)
        fun c _ => (d'.key_ne_attemptKey c).symm, hput, if_pos rfl]
    · rcases h.settled d' hd' with ⟨deadline', hdeadline', hexpired, hleased⟩
      refine ⟨deadline', hdeadline', hexpired, fun hearly => ?_⟩
      rcases hleased hearly with ⟨c, hc, htakes⟩
      exact ⟨c, hc, hbefore htakes⟩
  · intro x hx hxc
    rw [h.others x (fun d' hd' => hx d' (List.mem_cons_of_mem d hd')) hxc, hput,
      if_neg (hx d List.mem_cons_self)]

/-- A delivery before its deadline is leased before the rest is processed. -/
theorem Processed.lease {policy : RetryPolicy} {leaseExpiresAt : Datetime}
    (hpolicy : snapshotPolicy d.routeSnapshot = .ok policy)
    (hdeadline : deliveryDeadline policy d.createdAt = .ok deadline) (hearly : now < deadline)
    (hexpiry : leaseExpiry policy now = .ok leaseExpiresAt)
    (hd : ∀ d' ∈ selected, d.key ≠ d'.key) (hkey : c.deliveryKey = d.key)
    (hfresh : t.get c.attemptKey = none)
    (h : Processed ((t.put (.delivery (leasedDelivery d c.leaseToken leaseExpiresAt now))).put
      (.attempt (startedAttempt d c.attempt.attemptId c.leaseToken now))) t' now selected claims) :
    Processed t t' now (d :: selected) (c :: claims) := by
  have hattempt : Key.attempt d.tenantId c.attempt.attemptId = c.attemptKey := by
    have htenant := (Key.delivery.inj hkey).1
    rw [ClaimedDelivery.attemptKey, htenant]
  have hput : ∀ x, ((t.put (.delivery (leasedDelivery d c.leaseToken leaseExpiresAt now))).put
      (.attempt (startedAttempt d c.attempt.attemptId c.leaseToken now))).get x =
      if c.attemptKey = x then
        some (.attempt (startedAttempt d c.attempt.attemptId c.leaseToken now))
      else if d.key = x then
        some (.delivery (leasedDelivery d c.leaseToken leaseExpiresAt now)) else t.get x := by
    intro x
    rw [Table.get_put, Table.get_put, ← hattempt]
    rfl
  have hbefore : ∀ {c' : ClaimedDelivery} {d' : DeliveryRow}, c'.Takes ((t.put (.delivery
      (leasedDelivery d c.leaseToken leaseExpiresAt now))).put
      (.attempt (startedAttempt d c.attempt.attemptId c.leaseToken now))) t' now d' →
      c.attemptKey ≠ c'.attemptKey ∧ c'.Takes t t' now d' := by
    intro c' d' hc'
    have hnone := hc'.fresh
    rw [hput] at hnone
    split_ifs at hnone with hne hdkey
    exact ⟨hne, hc'.before fun _ => hnone⟩
  have hnew : ∀ c' ∈ claims, c'.attemptKey ≠ c.attemptKey := by
    intro c' hc'
    rcases h.takes c' hc' with ⟨d', -, htakes⟩
    exact (hbefore htakes).1.symm
  have htakes : c.Takes t t' now d := by
    refine ⟨hkey, ⟨deadline, ⟨policy, hpolicy, hdeadline⟩, hearly⟩,
      ⟨policy, leaseExpiresAt, hpolicy, hexpiry, ?_⟩, hfresh, ?_⟩
    · rw [h.others d.key (fun d' hd' => (hd d' hd').symm)
        fun c' _ => (d.key_ne_attemptKey c').symm, hput, if_neg (d.key_ne_attemptKey c).symm,
        if_pos rfl]
    · rw [h.others c.attemptKey (fun d' _ => d'.key_ne_attemptKey c) hnew, hput, if_pos rfl]
  constructor
  · rw [List.map_cons, List.map_cons, hkey]
    exact h.order.cons_cons d.key
  · intro c' hc'
    rcases List.mem_cons.mp hc' with rfl | hc'
    · exact ⟨d, List.mem_cons_self, htakes⟩
    · rcases h.takes c' hc' with ⟨d', hd', htakes'⟩
      exact ⟨d', List.mem_cons_of_mem d hd', (hbefore htakes').2⟩
  · intro d' hd'
    rcases List.mem_cons.mp hd' with rfl | hd'
    · refine ⟨deadline, ⟨policy, hpolicy, hdeadline⟩, fun hlate => absurd hearly (not_lt.mpr hlate),
        fun _ => ⟨c, List.mem_cons_self, htakes⟩⟩
    · rcases h.settled d' hd' with ⟨deadline', hdeadline', hexpired, hleased⟩
      refine ⟨deadline', hdeadline', hexpired, fun hearly' => ?_⟩
      rcases hleased hearly' with ⟨c', hc', htakes'⟩
      exact ⟨c', List.mem_cons_of_mem c hc', (hbefore htakes').2⟩
  · intro x hx hxc
    rw [h.others x (fun d' hd' => hx d' (List.mem_cons_of_mem d hd'))
      fun c' hc' => hxc c' (List.mem_cons_of_mem c hc'), hput, if_neg (hxc c List.mem_cons_self),
      if_neg (hx d List.mem_cons_self)]

end Steps

/-! ## The run -/

section Run

variable {s s' : Session Key Row UUID}

theorem exec_lift_eq_ok {α : Type} {x : Except PyError α} {a : α}
    (h : s.exec (Tx.lift x) = (.ok a, s')) : x = .ok a ∧ s' = s := by
  rw [Session.exec_ofExcept] at h
  cases h
  exact ⟨rfl, rfl⟩

theorem exec_updateRow_eq_ok {checks : Bool} {r : Row} {u : Unit}
    (h : s.exec (updateRow checks r) = (.ok u, s')) : s' = s.change (.put r) := by
  unfold updateRow at h
  split_ifs at h
  · cases h
    rfl
  · cases h

/-- An inserted row has a key no stored row has. -/
theorem exec_insertRow_eq_ok {checks : Bool} {r : Row} {u : Unit}
    (h : s.exec (insertRow checks r) = (.ok u, s')) :
    s.visible.get r.key = none ∧ s' = s.change (.put r) := by
  rcases Session.exec_bind_eq_ok h with ⟨inserted, s₁, hinsert, hrest⟩
  unfold insertOrSkip at hinsert
  split_ifs at hinsert
  · rw [Session.exec] at hinsert
    split_ifs at hinsert with hconflict
    · cases hinsert
      cases hrest
    · cases hinsert
      cases hrest
      refine ⟨Table.get_eq_none_iff.mpr fun row hrow heq => hconflict ?_, rfl⟩
      refine List.any_eq_true.mpr ⟨row, hrow, decide_eq_true (Or.inl ?_)⟩
      exact heq.symm
  · cases hinsert

/-- The rows of a list of stored deliveries are locked in its order, up to the limit. -/
theorem exec_lockUpTo (s : Session Key Row UUID) (n : ℕ) {rows : List DeliveryRow}
    (hrows : ∀ d ∈ rows, s.visible.get d.key = some (.delivery d)) :
    s.exec (lockUpTo Row.delivery? (fun _ => true) n (rows.map DeliveryRow.key)) =
      (.ok (rows.take n), s) := by
  induction rows generalizing n with
  | nil => cases n <;> rfl
  | cons d rows ih =>
      cases n with
      | zero => rfl
      | succ n =>
          have hrest := ih n fun d' hd' => hrows d' (List.mem_cons_of_mem d hd')
          have hlock : s.exec (selectSkipLocked Row.delivery? d.key) = (.ok (some d), s) := by
            rw [selectSkipLocked, Session.exec, hrows d List.mem_cons_self]
            rfl
          rw [List.map_cons, lockUpTo, Prog.bind_eq, Session.exec_bind_ok hlock]
          simp only [if_true, Prog.bind_eq]
          rw [Session.exec_bind_ok hrest]
          rfl

/-- Leasing a delivery writes it and inserts the attempt of the claim. -/
theorem exec_leaseOne {d : DeliveryRow} {policy : RetryPolicy} {now : Datetime}
    {c : ClaimedDelivery} (h : s.exec (leaseOne d policy now) = (.ok c, s')) :
    ∃ leaseExpiresAt, leaseExpiry policy now = .ok leaseExpiresAt ∧ c.deliveryKey = d.key ∧
      s.visible.get c.attemptKey = none ∧
      s'.visible = (s.visible.put (.delivery (leasedDelivery d c.leaseToken leaseExpiresAt now))).put
        (.attempt (startedAttempt d c.attempt.attemptId c.leaseToken now)) := by
  rcases Session.exec_bind_eq_ok h with ⟨token, s₁, htoken, h⟩
  cases htoken
  rcases Session.exec_bind_eq_ok h with ⟨attemptId, s₂, hid, h⟩
  cases hid
  rcases Session.exec_bind_eq_ok h with ⟨leaseExpiresAt, s₃, hlease, h⟩
  have hexpiry := exec_lift_eq_ok hlease
  rcases Session.exec_bind_eq_ok h with ⟨u, s₄, hinteger, h⟩
  rcases Session.exec_bind_eq_ok h with ⟨u', s₅, hupdate, h⟩
  rcases Session.exec_bind_eq_ok h with ⟨u'', s₆, hinsert, h⟩
  rcases Session.exec_bind_eq_ok h with ⟨event, s₇, hevent, h⟩
  cases hevent
  have hs₄ : s₄.visible = s.visible := by
    unfold checkInteger at hinteger
    split_ifs at hinteger
    · cases hinteger
      rw [hexpiry.2]
      rfl
    · cases hinteger
  have hs₅ := exec_updateRow_eq_ok hupdate
  rcases exec_insertRow_eq_ok hinsert with ⟨hnone, hs₆⟩
  cases hrow : (s₆.visible.get (.event d.tenantId d.eventId)).bind Row.event? with
  | none =>
      rw [hrow] at h
      cases h
  | some event =>
      rw [hrow] at h
      rcases Session.exec_bind_eq_ok h with ⟨eventRecord, s₈, hevent, hrest⟩
      rcases Session.exec_bind_eq_ok hrest with ⟨deliveryRecord, s₉, hdelivery, hrest'⟩
      rcases Session.exec_bind_eq_ok hrest' with ⟨attemptRecord, s₁₀, hattempt, hreturn⟩
      have hs₈ := (exec_lift_eq_ok hevent).2
      have hs₉ := (exec_lift_eq_ok hdelivery).2
      have hs₁₀ := (exec_lift_eq_ok hattempt).2
      injection hreturn with hc hs'
      cases hc
      rcases deliveryFromRow_eq_ok (exec_lift_eq_ok hdelivery).1 with ⟨hid, htenant, -, -⟩
      have hstarted := attemptFromRow_eq_ok (exec_lift_eq_ok hattempt).1
      have hfinal : s'.visible = (s.visible.put (.delivery (leasedDelivery d (s.supply 0)
          leaseExpiresAt now))).put (.attempt (startedAttempt d (s.supply 1) (s.supply 0) now)) := by
        rw [← hs', hs₁₀, hs₉, hs₈, hs₆, Session.visible_put, hs₅, Session.visible_put, hs₄]
      have hkey : Key.attempt deliveryRecord.tenantId attemptRecord.attemptId =
          .attempt d.tenantId (s.supply 1) := by
        rw [htenant, hstarted]
        rfl
      have hunstored : s.visible.get (.attempt d.tenantId (s.supply 1)) = none := by
        rw [hs₅, Session.visible_put, hs₄] at hnone
        exact (Table.get_put _ _ _).symm.trans hnone
      refine ⟨leaseExpiresAt, hexpiry.1, ?_, ?_, ?_⟩
      · rw [ClaimedDelivery.deliveryKey, hid, htenant]
        rfl
      · rw [ClaimedDelivery.attemptKey, hkey]
        exact hunstored
      · rw [hfinal, ClaimedDelivery.leaseToken, hstarted]
        rfl

/-- A live part of the loop leaves its candidates as it found them. -/
theorem exec_claimLoop {now : Datetime} {batchSize perTenant : ℤ} {candidates : List DeliveryRow}
    {claimed result : List ClaimedDelivery}
    (hstored : ∀ d ∈ candidates, s.visible.get d.key = some (.delivery d))
    (hdistinct : candidates.Pairwise fun d d' => d.key ≠ d'.key)
    (hbatch : ((claimed.length + candidates.length : ℕ) : ℤ) ≤ batchSize)
    (htenant : ∀ tenantId, ((claimed.countP (fun c => c.delivery.tenantId = tenantId) +
      candidates.countP (fun d => d.tenantId = tenantId) : ℕ) : ℤ) ≤ perTenant)
    (h : s.exec (claimLoop now batchSize perTenant candidates claimed) = (.ok result, s')) :
    ∃ claims, result = claimed ++ claims ∧
      Processed s.visible s'.visible now candidates claims := by
  induction candidates generalizing s claimed with
  | nil =>
      cases h
      exact ⟨[], (List.append_nil _).symm, .nil _ _⟩
  | cons d candidates ih =>
      rcases List.pairwise_cons.mp hdistinct with ⟨hd, hrest⟩
      -- the bounds of the query keep the counters of the loop below theirs
      have hbelow : ¬ batchSize ≤ claimed.length := by
        rw [List.length_cons] at hbatch
        omega
      have hbelow' : ¬ perTenant ≤
          (claimed.countP fun c => c.delivery.tenantId = d.tenantId : ℕ) := by
        have hcount := htenant d.tenantId
        rw [List.countP_cons_of_pos (by simp)] at hcount
        omega
      rw [claimLoop, if_neg hbelow, if_neg hbelow'] at h
      rcases Session.exec_bind_eq_ok h with ⟨policy, s₁, hsnapshot, hread⟩
      rcases Session.exec_bind_eq_ok hread with ⟨deadline, s₂, hlimit, hbranch⟩
      rcases exec_lift_eq_ok hsnapshot with ⟨hpolicy, rfl⟩
      rcases exec_lift_eq_ok hlimit with ⟨hdeadline, rfl⟩
      split_ifs at hbranch with hlate
      · -- the deadline has passed
        rcases Session.exec_bind_eq_ok hbranch with ⟨u, s₃, hupdate, hloop⟩
        have hs₃ : s₃.visible = s₂.visible.put (.delivery (expiredDelivery d now)) := by
          rw [exec_updateRow_eq_ok hupdate, Session.visible_put]
        have hstored₃ : ∀ d' ∈ candidates, s₃.visible.get d'.key = some (.delivery d') := by
          intro d' hd'
          rw [hs₃, Table.get_put]
          exact (if_neg (hd d' hd')).trans (hstored d' (List.mem_cons_of_mem d hd'))
        have htenant₃ : ∀ tenantId, ((claimed.countP (fun c => c.delivery.tenantId = tenantId) +
            candidates.countP (fun d => d.tenantId = tenantId) : ℕ) : ℤ) ≤ perTenant := by
          intro tenantId
          have hcount := htenant tenantId
          rw [List.countP_cons] at hcount
          omega
        rw [List.length_cons] at hbatch
        rcases ih hstored₃ hrest (by omega) htenant₃ hloop with ⟨claims, hresult, hprocessed⟩
        rw [hs₃] at hprocessed
        exact ⟨claims, hresult, hprocessed.expire ⟨policy, hpolicy, hdeadline⟩ hlate hd⟩
      · rcases Session.exec_bind_eq_ok hbranch with ⟨c, s₃, hlease, hloop⟩
        rcases exec_leaseOne hlease with ⟨leaseExpiresAt, hexpiry, hkey, hfresh, hs₃⟩
        have htenantId : c.delivery.tenantId = d.tenantId := (Key.delivery.inj hkey).1
        have hstored₃ : ∀ d' ∈ candidates, s₃.visible.get d'.key = some (.delivery d') := by
          intro d' hd'
          rw [hs₃, Table.get_put, Table.get_put]
          exact (if_neg (hd d' hd')).trans (hstored d' (List.mem_cons_of_mem d hd'))
        have htenant₃ : ∀ tenantId,
            (((claimed ++ [c]).countP (fun c => c.delivery.tenantId = tenantId) +
              candidates.countP (fun d => d.tenantId = tenantId) : ℕ) : ℤ) ≤ perTenant := by
          intro tenantId
          have hcount := htenant tenantId
          rw [List.countP_cons] at hcount
          rw [List.countP_append, List.countP_singleton, htenantId]
          omega
        have hbatch₃ : (((claimed ++ [c]).length + candidates.length : ℕ) : ℤ) ≤ batchSize := by
          rw [List.length_cons] at hbatch
          rw [List.length_append, List.length_singleton]
          omega
        rcases ih hstored₃ hrest hbatch₃ htenant₃ hloop with ⟨claims, hresult, hprocessed⟩
        rw [hs₃] at hprocessed
        refine ⟨c :: claims, ?_, ?_⟩
        · rw [hresult, List.append_assoc, List.singleton_append]
        · exact hprocessed.lease hpolicy hdeadline (not_le.mp hlate) hexpiry hd hkey hfresh

/-- A claim that returns has processed a selection of what was due at its first reading of the
clock. -/
theorem exec_claim {now : Datetime} {batchSize perTenant : ℤ} {claims : List ClaimedDelivery}
    (h : s.exec (claim now batchSize perTenant) = (.ok claims, s')) :
    ∃ selected, Selection s.visible (s.clock 0) batchSize perTenant selected ∧
      Processed s.visible s'.visible (s.clock 1) selected claims := by
  rcases Session.exec_bind_eq_ok h with ⟨u, s₁, hpositive, h₁⟩
  rcases exec_lift_eq_ok hpositive with ⟨hbatch, hs₁⟩
  rcases Session.exec_bind_eq_ok h₁ with ⟨u', s₂, hpositive', h₂⟩
  rcases exec_lift_eq_ok hpositive' with ⟨htenant, hs₂⟩
  rw [hs₂, hs₁] at h₂
  replace hbatch : 1 ≤ batchSize := of_decide_eq_true (check_eq_ok.mp hbatch)
  replace htenant : 1 ≤ perTenant := of_decide_eq_true (check_eq_ok.mp htenant)
  rcases Session.exec_bind_eq_ok h₂ with ⟨selectionTime, s₃, hnow, h₃⟩
  cases hnow
  rcases Session.exec_bind_eq_ok h₃ with ⟨rows, s₄, hrows, h₄⟩
  cases hrows
  rcases Session.exec_bind_eq_ok h₄ with ⟨candidates, s₅, hlock, h₅⟩
  obtain ⟨listed, hlisted⟩ : ∃ listed, listed = claimCandidates (s.clock 0) perTenant.toNat
    (s.visible.rows.filterMap Row.delivery?) := ⟨_, rfl⟩
  have hstored : ∀ d ∈ listed, s.visible.get d.key = some (.delivery d) := fun d hd =>
    Table.mem_iff_get.mp (mem_deliveries.mp (mem_claimCandidates (hlisted ▸ hd)).1)
  have hlocked : Session.exec { s with clock := fun n => s.clock (n + 1) }
      (lockUpTo Row.delivery? (fun _ => true) batchSize.toNat (listed.map DeliveryRow.key)) =
        (.ok (listed.take batchSize.toNat), { s with clock := fun n => s.clock (n + 1) }) :=
    exec_lockUpTo _ _ hstored
  rw [hlisted] at hlocked
  cases hlocked.symm.trans hlock
  rcases Session.exec_bind_eq_ok h₅ with ⟨effectiveNow, s₆, hnow', h₆⟩
  cases hnow'
  have hselection := selection_claimCandidates s.visible (s.clock 0) hbatch htenant
  rw [← hlisted] at hselection
  have hloop : Session.exec { s with clock := fun n => s.clock (n + 1 + 1) }
      (claimLoop (s.clock 1) batchSize perTenant (listed.take batchSize.toNat) []) =
        (.ok claims, s') := by
    rw [hlisted]
    exact h₆
  have hcounters : ∀ tenantId, ((([] : List ClaimedDelivery).countP
      (fun c => c.delivery.tenantId = tenantId) + (listed.take batchSize.toNat).countP
        (fun d => d.tenantId = tenantId) : ℕ) : ℤ) ≤ perTenant := by
    intro tenantId
    rw [List.countP_nil, Nat.zero_add]
    exact hselection.fair tenantId
  have hlength : ((([] : List ClaimedDelivery).length +
      (listed.take batchSize.toNat).length : ℕ) : ℤ) ≤ batchSize := by
    rw [List.length_nil, Nat.zero_add]
    exact hselection.overall
  have hkept : ∀ d ∈ listed.take batchSize.toNat,
      (Session.visible { s with clock := fun n => s.clock (n + 1 + 1) }).get d.key =
        some (.delivery d) := fun d hd => hstored d (List.mem_of_mem_take hd)
  rcases exec_claimLoop hkept hselection.distinct hlength hcounters hloop with
    ⟨processed, hresult, hprocessed⟩
  rw [List.nil_append] at hresult
  rw [hresult]
  exact ⟨_, hselection, hprocessed⟩

end Run

/-! ## Fairness -/

/-- Whether a key is that of a delivery of a tenant. -/
def Key.isDeliveryOf (tenantId : UUID) : Key → Bool
  | .delivery t _ => t = tenantId
  | _ => false

/-- The claims of a processed selection are as many as the selection at most, of every tenant. -/
theorem Processed.bounds {t t' : Db} {now : Datetime} {selected : List DeliveryRow}
    {claims : List ClaimedDelivery} (h : Processed t t' now selected claims) :
    claims.length ≤ selected.length ∧
      ∀ tenantId, claims.countP (fun c => c.delivery.tenantId = tenantId) ≤
        selected.countP fun d => d.tenantId = tenantId := by
  constructor
  · have hlength := h.order.length_le
    rwa [List.length_map, List.length_map] at hlength
  · intro tenantId
    have hcount := h.order.countP_le (p := Key.isDeliveryOf tenantId)
    rw [List.countP_map, List.countP_map] at hcount
    exact hcount

/-- A claim with no other in its way hands out distinct deliveries, at most `batchSize` of them
and at most `perTenant` of a tenant, each due at the first reading of the clock and before its
deadline at the second. It selects fairly, every selected delivery is dead or leased afterwards,
and every other row is what it was. -/
theorem claim_fairness (s : Session Key Row UUID) (now : Datetime) (batchSize perTenant : ℤ)
    {claims : List ClaimedDelivery} {s' : Session Key Row UUID}
    (h : s.run (claim now batchSize perTenant) = .ok (claims, s')) :
    (claims.map ClaimedDelivery.deliveryKey).Nodup ∧ (claims.length : ℤ) ≤ batchSize ∧
    (∀ tenantId, (claims.countP (fun c => c.delivery.tenantId = tenantId) : ℤ) ≤ perTenant) ∧
    (∀ c ∈ claims, ∃ d, Row.delivery d ∈ s.visible.rows ∧ d.Due (s.clock 0) ∧
      c.Takes s.visible s'.visible (s.clock 1) d) ∧
    ∃ selected, Selection s.visible (s.clock 0) batchSize perTenant selected ∧
      (∀ d ∈ selected, ∃ deadline, d.HasDeadline deadline ∧
        (deadline ≤ s.clock 1 →
          s'.visible.get d.key = some (.delivery (expiredDelivery d (s.clock 1)))) ∧
        (s.clock 1 < deadline →
          ∃ c ∈ claims, c.Takes s.visible s'.visible (s.clock 1) d)) ∧
      ∀ row ∈ s.visible.rows, (∀ d ∈ selected, row ≠ .delivery d) →
        s'.visible.get row.key = some row := by
  rw [Session.run_eq_exec] at h
  rcases hexec : s.exec (claim now batchSize perTenant) with ⟨e | claims', s₁⟩
  · rw [hexec] at h
    cases h
  rw [hexec] at h
  cases h
  rcases exec_claim hexec with ⟨selected, hselection, hprocessed⟩
  rcases hprocessed.bounds with ⟨hlength, hcount⟩
  have hoverall := hselection.overall
  refine ⟨?_, by omega, fun tenantId => ?_, fun c hc => ?_, selected, hselection,
    hprocessed.settled, fun row hrow hnot => ?_⟩
  · exact hprocessed.order.nodup (List.pairwise_map.mpr hselection.distinct)
  · have hfair := hselection.fair tenantId
    have hle := hcount tenantId
    omega
  · rcases hprocessed.takes c hc with ⟨d, hd, htakes⟩
    exact ⟨d, hselection.stored d hd, hselection.due d hd, htakes⟩
  · have hget : s.visible.get row.key = some row := Table.mem_iff_get.mp hrow
    rw [hprocessed.others row.key ?_ ?_]
    · exact hget
    · intro d hd hkey
      -- two stored rows under one key are the same row
      refine hnot d hd ?_
      have hd' : s.visible.get d.key = some (.delivery d) :=
        Table.mem_iff_get.mp (hselection.stored d hd)
      rw [hkey, hget] at hd'
      exact Option.some.inj hd'
    · intro c hc hkey
      rcases hprocessed.takes c hc with ⟨d, -, htakes⟩
      have hfresh := htakes.fresh
      rw [hkey, hget] at hfresh
      cases hfresh

namespace BusyTenant

def event : EventRow where
  eventId := 100
  tenantId := 1
  eventType := "order.created"
  eventVersion := 1
  canonicalVersion := 1
  payloadCanonical := canonicalPrefix ++ [123, 125]
  payloadSha256 := List.replicate 32 0
  principal := ⟨1, "service", [], none, none, 0, none, none, none⟩
  occurredAt := 0
  createdAt := 0
  correlationId := none
  causationId := none
  traceparent := none
  tracestate := none
  dedupeNamespace := none
  dedupeKey := none

/-- A delivery that waits since a time. -/
def waiting (deliveryId : UUID) (nextAttemptAt : Datetime) : DeliveryRow where
  tenantId := 1
  deliveryId := deliveryId
  eventId := 100
  routeKey := "orders"
  routeVersion := 1
  destinationKind := "handler"
  destinationKey := "receiver"
  routeSnapshot := .obj [("retry", .obj [
    ("name", .str "p"), ("version", .int 1), ("max_attempts", .int 3),
    ("maximum_elapsed_seconds", .int 60), ("base_delay_seconds", .int 1),
    ("maximum_delay_seconds", .int 10), ("handler_timeout_seconds", .int 2),
    ("lease_duration_seconds", .int 30), ("jitter", .str "full")])]
  routeSnapshotBytes := [123, 125]
  state := .pending
  attemptsStarted := 0
  nextAttemptAt := nextAttemptAt
  leaseToken := none
  leaseExpiresAt := none
  replayOf := none
  replayActor := none
  replayReason := none
  createdAt := 0
  updatedAt := 0

/-- Two deliveries of one tenant are due after a second. -/
def session : Session Key Row UUID :=
  Session.on ⟨[.event event, .delivery (waiting 101 1), .delivery (waiting 102 0)], by decide⟩
    (fun _ => 1000000) fun n => 200 + n

/-- One of them is claimed when a tenant may have one. -/
theorem claim_fairness_busy : ∃ claims s', session.run (claim 1000000 10 1) = .ok (claims, s') ∧
    claims.length = 1 ∧ ∃ selected, Selection session.visible 1000000 10 1 selected := by
  have hone : (session.run (claim 1000000 10 1)).toOption.map (fun r => r.1.length) = some 1 := by
    decide +kernel
  rcases hrun : session.run (claim 1000000 10 1) with e | ⟨claims, s'⟩
  · rw [hrun] at hone
    cases hone
  · rw [hrun] at hone
    rcases claim_fairness session 1000000 10 1 hrun with ⟨-, -, -, -, selected, hselection, -⟩
    exact ⟨claims, s', rfl, Option.some.inj hone, selected, hselection⟩

end BusyTenant

end FastapiEffects
