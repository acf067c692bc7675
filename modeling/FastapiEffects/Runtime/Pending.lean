import FastapiEffects.Runtime.Discipline

/-! # Unfinished transactions

What a transaction of the runtime has pending (`Pending`): every row it changed is
held, together with the delivery it belongs to, and what it sees of a delivery or of a
handoff it changed is one move away from what is committed. The others cannot disturb
this (`Pending.env`), each group of statements extends it (`Pending.cellStep`,
`Pending.handoffStep`), and at the end it gives what the discipline asks of a commit
(`Pending.returns`, `raises_of_current`).
-/

namespace FastapiEffects

open Python ReadCommitted

variable [Platform]

/-- What an unfinished transaction holds. -/
abbrev RuntimeCtx := Ctx Key Row UUID

/-- A running transaction of the runtime. -/
abbrev RuntimeTxn := Txn Key Row UUID PyError Op Outcome

/-! ## The beginning -/

theorem issued_iff {log : History} {cd : ClaimedDelivery} :
    issued log cd = true ↔ ∃ e ∈ log, cd ∈ claimsOf e := by
  simp [issued]

theorem admitted_iff {log : History} {ex : ExecutingHandoff} :
    admitted log ex = true ↔ ∃ e ∈ log, executionOf e = some ex := by
  simp [admitted]

/-- What a worker may act on it may still act on later. -/
theorem Op.allowed_mono {op : Op} {s s' : RuntimeStore} (hlog : s.log <+: s'.log)
    (h : op.allowed s = true) : op.allowed s' = true := by
  have hissued : ∀ {cd}, issued s.log cd = true → issued s'.log cd = true := by
    intro cd hcd
    obtain ⟨e, he, hc⟩ := issued_iff.mp hcd
    exact issued_iff.mpr ⟨e, hlog.subset he, hc⟩
  have hadmitted : ∀ {ex}, admitted s.log ex = true → admitted s'.log ex = true := by
    intro ex hex
    obtain ⟨e, he, hc⟩ := admitted_iff.mp hex
    exact admitted_iff.mpr ⟨e, hlog.subset he, hc⟩
  cases op with
  | succeed | fail | prepare => exact hissued h
  | finalizeSuccess | finalizeFailure => exact hadmitted h
  | _ => rfl

/-- The transaction began before the store it is at, under its mode. -/
structure Began (m : Mode) (x : RuntimeTxn) (s : RuntimeStore) : Prop where
  time : x.beganAt ≤ s.now
  allowed : x.op.allowed s = true
  relay : x.op.relays → m.relay

theorem Began.env {m : Mode} {x : RuntimeTxn} {c : RuntimeCtx} {s s' : RuntimeStore}
    (h : Began m x s) (henv : m.discipline.Env c s s') : Began m x s' :=
  ⟨h.time.trans henv.time, Op.allowed_mono henv.log h.allowed, h.relay⟩

/-! ## The pending changes -/

/-- What an unfinished transaction may do besides what any of them may: the attempts and
handoffs it may end in success, the deliveries and handoffs it may create, and the
executions it may hand out. -/
structure Scope where
  wins : UUID → UUID → Prop := fun _ _ => False
  new : DeliveryRow → Prop := fun _ => False
  settles : UUID → UUID → Prop := fun _ _ => False
  runs : UUID → UUID → UUID → Datetime → Datetime → Prop := fun _ _ _ _ _ => False
  prepares : HandoffRow → Prop := fun _ => False

/-- The moves it may make of a delivery of tenant `t`. -/
def Scope.moves (sc : Scope) (m : Mode) (c : RuntimeCtx) (t : UUID) : Moves where
  fenced := m.fenced
  wins := sc.wins t
  fresh k := k ∈ c.ids
  new := sc.new

/-- The moves it may make of a handoff. -/
def Scope.handoffMoves (sc : Scope) (t h : UUID) : HandoffMoves where
  wins := sc.settles t h
  runs := sc.runs t h
  new := sc.prepares

/-- Whether some pending change belongs to a delivery. -/
def touches (c : RuntimeCtx) (t d : UUID) : Prop :=
  ∃ r, Write.put r ∈ c.writes ∧ r.cell = some (t, d)

/-- What holds of the pending changes. -/
structure Pending (m : Mode) (sc : Scope) (c : RuntimeCtx) (s : RuntimeStore) : Prop where
  puts : ∀ v ∈ c.writes, ∃ r, v = .put r ∧ r.key ∈ c.held ∧
    (∀ t d, r.cell = some (t, d) → .delivery t d ∈ c.held) ∧ r.Replaces s.db
  cells : ∀ t d, touches c t d → ∃ τ ≤ s.now, (cellAt s.db t d).Inv m.fenced τ ∧
    Cell.Step (sc.moves m c t) τ (cellAt s.db t d) (cellAt (c.visible s.db) t d)
  handoffs : ∀ t h, (∃ v ∈ c.writes, v.target = .handoff t h) → ∃ τ ≤ s.now,
    HandoffStep (sc.handoffMoves t h) τ (handoffAt s.db t h) (handoffAt (c.visible s.db) t h)

namespace Pending

variable {m : Mode} {sc : Scope} {c c' : RuntimeCtx} {s s' : RuntimeStore} {t d h : UUID}

/-- A transaction that has changed nothing. -/
theorem of_writes_nil (hwrites : c.writes = []) : Pending m sc c s where
  puts := by simp [hwrites]
  cells := by
    rintro t d ⟨r, hr, -⟩
    simp [hwrites] at hr
  handoffs := by
    rintro t h ⟨v, hv, -⟩
    simp [hwrites] at hv

/-- The others cannot disturb what is pending. -/
theorem env (hp : Pending m sc c s) (henv : m.discipline.Env c s s') : Pending m sc c s' where
  puts := by
    intro v hv
    obtain ⟨r, rfl, hkey, hcell, hreplaces⟩ := hp.puts v hv
    refine ⟨r, rfl, hkey, hcell, ?_⟩
    unfold Row.Replaces at hreplaces ⊢
    rwa [henv.rows _ hkey]
  cells := by
    intro t d htouch
    obtain ⟨τ, hτ, hinv, hstep⟩ := hp.cells t d htouch
    have hheld : Key.delivery t d ∈ c.held := by
      obtain ⟨r, hr, hcell⟩ := htouch
      obtain ⟨r', heq, -, hdelivery, -⟩ := hp.puts _ hr
      cases heq
      exact hdelivery t d hcell
    have hcell : cellAt s'.db t d = cellAt s.db t d := henv.rely _ hheld
    refine ⟨τ, hτ.trans henv.time, hcell ▸ hinv, ?_⟩
    rwa [hcell, show cellAt (c.visible s'.db) t d = cellAt (c.visible s.db) t d from
      cellAt_install_congr hcell c.writes]
  handoffs := by
    intro t h htouch
    obtain ⟨τ, hτ, hstep⟩ := hp.handoffs t h htouch
    have hget : s'.db.get (.handoff t h) = s.db.get (.handoff t h) := by
      obtain ⟨v, hv, htarget⟩ := htouch
      obtain ⟨r, rfl, hkey, -, -⟩ := hp.puts v hv
      exact henv.rows _ (htarget ▸ hkey)
    refine ⟨τ, hτ.trans henv.time, ?_⟩
    have hvisible : handoffAt (c.visible s'.db) t h = handoffAt (c.visible s.db) t h :=
      handoffAt_congr (Table.get_install_congr hget c.writes)
    rwa [handoffAt_congr hget, hvisible]

/-- Holding more, or further identifiers, changes nothing. -/
theorem congr (hp : Pending m sc c s) (hwrites : c'.writes = c.writes) (hheld : c.held ⊆ c'.held)
    (hids : c.ids ⊆ c'.ids) : Pending m sc c' s where
  puts := by
    intro v hv
    rw [hwrites] at hv
    obtain ⟨r, heq, hkey, hcell, hreplaces⟩ := hp.puts v hv
    exact ⟨r, heq, hheld hkey, fun t d h => hheld (hcell t d h), hreplaces⟩
  cells := by
    intro t d htouch
    have htouch' : touches c t d := by simpa [touches, hwrites] using htouch
    obtain ⟨τ, hτ, hinv, hstep⟩ := hp.cells t d htouch'
    refine ⟨τ, hτ, hinv, ?_⟩
    simp only [Ctx.visible, hwrites]
    exact hstep.mono id (fun _ h => h) (fun _ h => hids h) (fun _ h => h)
  handoffs := by
    intro t h htouch
    simp only [Ctx.visible, hwrites] at htouch ⊢
    exact hp.handoffs t h htouch

omit [Platform] in
theorem get_put_of_ne {db : Db} {r : Row} {x : Key} (hne : r.key ≠ x) :
    (db.put r).get x = db.get x := by
  rw [Table.get_put]
  exact if_neg hne

omit [Platform] in
/-- A row under a changed key is the last one that was put there. -/
theorem get_install_put (db : Db) {ws : List (Write Key Row)} {x : Key}
    (hputs : ∀ v ∈ ws, ∃ r, v = .put r) (hx : ∃ v ∈ ws, v.target = x) :
    ∃ r, Write.put r ∈ ws ∧ (db.install ws).get x = some r := by
  induction ws generalizing db with
  | nil => simp at hx
  | cons v ws ih =>
      by_cases hlater : ∃ w ∈ ws, w.target = x
      · obtain ⟨r, hr, hget⟩ := ih (v.apply db) (fun w hw => hputs w (by simp [hw])) hlater
        exact ⟨r, by simp [hr], hget⟩
      · obtain ⟨r, rfl⟩ := hputs v (by simp)
        have htarget : Schema.key r = x := by
          obtain ⟨w, hw, hwx⟩ := hx
          rcases List.mem_cons.mp hw with rfl | hw
          · exact hwx
          · exact absurd ⟨w, hw, hwx⟩ hlater
        refine ⟨r, by simp, ?_⟩
        rw [Table.install_put, Table.get_install_of_forall_ne fun w hw h => hlater ⟨w, hw, h⟩,
          Table.get_put, if_pos htarget]

/-- What may replace a visible row may replace the committed one. -/
theorem replaces (hp : Pending m sc c s) {r : Row} (hr : r.Replaces (c.visible s.db)) :
    r.Replaces s.db := by
  by_cases hx : ∃ v ∈ c.writes, v.target = r.key
  · obtain ⟨r', hr', hget⟩ := get_install_put s.db
      (fun v hv => (hp.puts v hv).imp fun _ h => h.1) hx
    obtain ⟨r'', heq, -, -, hreplaces⟩ := hp.puts _ hr'
    cases heq
    have hkey : r'.key = r.key := Table.key_of_get hget
    rcases hr with hnone | ⟨r₀, hr₀, hid⟩
    · rw [Ctx.visible, hget] at hnone
      cases hnone
    · rw [Ctx.visible, hget] at hr₀
      cases hr₀
      rw [Row.Replaces, ← hkey]
      rcases hreplaces with hfree | ⟨r₁, hr₁, hid₁⟩
      · exact Or.inl hfree
      · exact Or.inr ⟨r₁, hr₁, hid.trans hid₁⟩
  · have hget : (c.visible s.db).get r.key = s.db.get r.key :=
      Table.get_install_of_forall_ne fun v hv h => hx ⟨v, hv, h⟩
    rwa [Row.Replaces, ← hget]

/-- A delivery nothing is pending for looks as it is committed. -/
theorem cell_untouched (hp : Pending m sc c s) (htouch : ¬ touches c t d) :
    cellAt (c.visible s.db) t d = cellAt s.db t d := by
  refine cellAt_install_of_cell_ne fun v hv => ?_
  obtain ⟨r, rfl, -, -, hreplaces⟩ := hp.puts v hv
  exact ⟨r, rfl, fun hcell => htouch ⟨r, hv, hcell⟩, hreplaces⟩

/-- A transaction that made no token has not leased anything: what it sees leased is as
it is committed. -/
theorem cell_leased (hp : Pending m sc c s) (hids : c.ids = []) {r : DeliveryRow}
    (hr : deliveryAt (c.visible s.db) t d = some r) (hleased : r.state = .leased) :
    cellAt (c.visible s.db) t d = cellAt s.db t d := by
  by_cases htouch : touches c t d
  · obtain ⟨τ, -, -, hstep⟩ := hp.cells t d htouch
    generalize hc : cellAt s.db t d = k at hstep ⊢
    generalize hc' : cellAt (c.visible s.db) t d = k' at hstep ⊢
    have hr' : k'.delivery = some r := hc' ▸ hr
    cases hstep with
    | same => rfl
    | create r as hnone hcreated hnew =>
        cases hr'
        rw [hcreated.pending] at hleased
        cases hleased
    | expire r as hfence hstate htime =>
        cases hr'
        cases hleased
    | lease r as id token expiry hfence htime hid hfresh htoken => simp [Scope.moves, hids] at hfresh
    | close r as a state outcome next code summary ha hcloses =>
        cases hr'
        rcases hcloses.ended with rfl | rfl | rfl <;> cases hleased
  · exact hp.cell_untouched htouch

omit [Platform] in
/-- Rows of one delivery leave the other deliveries alone. -/
theorem cell_other {db : Db} (rows : List Row) (hwrites : c'.writes = c.writes ++ rows.map .put)
    (hrows : ∀ r ∈ rows, r.cell = some (t, d) ∧ r.Replaces (c.visible db)) {t' d' : UUID}
    (hne : ¬ (t' = t ∧ d' = d)) :
    cellAt (c'.visible db) t' d' = cellAt (c.visible db) t' d' := by
  rw [Ctx.visible, hwrites, Table.install_append]
  refine cellAt_install_of_cell_ne fun v hv => ?_
  obtain ⟨r, hr, rfl⟩ := List.mem_map.mp hv
  refine ⟨r, rfl, fun h => hne ?_, (hrows r hr).2⟩
  rw [(hrows r hr).1] at h
  cases h
  exact ⟨rfl, rfl⟩

/-- Rows of one delivery, put on top of it as it is committed. -/
theorem cellStep (hp : Pending m sc c s) (rows : List Row) {τ : Datetime}
    (hwrites : c'.writes = c.writes ++ rows.map .put) (hheld : c.held ⊆ c'.held)
    (hids : c.ids ⊆ c'.ids)
    (hrows : ∀ r ∈ rows, r.key ∈ c'.held ∧ r.cell = some (t, d) ∧ r.Replaces (c.visible s.db))
    (hdelivery : .delivery t d ∈ c'.held)
    (hsame : cellAt (c.visible s.db) t d = cellAt s.db t d) (hτ : τ ≤ s.now)
    (hinv : (cellAt s.db t d).Inv m.fenced τ)
    (hstep : Cell.Step (sc.moves m c' t) τ (cellAt s.db t d)
      ((rows.map Write.put).foldl (Cell.change t d) (cellAt s.db t d))) : Pending m sc c' s := by
  have hvisible : c'.visible s.db = (c.visible s.db).install (rows.map .put) := by
    simp [Ctx.visible, hwrites]
  refine ⟨?_, ?_, ?_⟩
  · intro v hv
    rw [hwrites] at hv
    rcases List.mem_append.mp hv with hv | hv
    · obtain ⟨r, heq, hkey, hcell, hreplaces⟩ := hp.puts v hv
      exact ⟨r, heq, hheld hkey, fun t d h => hheld (hcell t d h), hreplaces⟩
    · obtain ⟨r, hr, rfl⟩ := List.mem_map.mp hv
      obtain ⟨hkey, hcell, hreplaces⟩ := hrows r hr
      refine ⟨r, rfl, hkey, fun t' d' h => ?_, hp.replaces hreplaces⟩
      rw [hcell] at h
      cases h
      exact hdelivery
  · intro t' d' htouch
    by_cases hcell : t' = t ∧ d' = d
    · obtain ⟨rfl, rfl⟩ := hcell
      refine ⟨τ, hτ, hinv, ?_⟩
      rwa [hvisible, cellAt_install, hsame]
    · -- another delivery
      have hold : touches c t' d' := by
        obtain ⟨r, hr, hrcell⟩ := htouch
        rw [hwrites] at hr
        rcases List.mem_append.mp hr with hr | hr
        · exact ⟨r, hr, hrcell⟩
        · obtain ⟨r', hr', heq⟩ := List.mem_map.mp hr
          cases heq
          rw [(hrows r hr').2.1] at hrcell
          cases hrcell
          exact absurd ⟨rfl, rfl⟩ hcell
      obtain ⟨τ', hτ', hinv', hstep'⟩ := hp.cells t' d' hold
      refine ⟨τ', hτ', hinv', ?_⟩
      rw [cell_other rows hwrites (fun r hr => (hrows r hr).2) hcell]
      exact hstep'.mono id (fun _ h => h) (fun _ h => hids h) (fun _ h => h)
  · intro t' h' htouch
    have hne : ∀ v ∈ rows.map (Write.put : Row → Write Key Row), v.target ≠ .handoff t' h' := by
      intro v hv
      obtain ⟨r, hr, rfl⟩ := List.mem_map.mp hv
      have hcell := (hrows r hr).2.1
      cases r <;> simp [Write.target, Schema.key, Row.key, Row.cell] at hcell ⊢
    have hold : ∃ v ∈ c.writes, v.target = .handoff t' h' := by
      obtain ⟨v, hv, htarget⟩ := htouch
      rw [hwrites] at hv
      rcases List.mem_append.mp hv with hv | hv
      · exact ⟨v, hv, htarget⟩
      · exact absurd htarget (hne v hv)
    obtain ⟨τ', hτ', hstep'⟩ := hp.handoffs t' h' hold
    refine ⟨τ', hτ', ?_⟩
    rwa [hvisible, handoffAt_congr (Table.get_install_of_forall_ne hne)]

/-- A handoff, put on top of it as it is committed. -/
theorem handoffStep (hp : Pending m sc c s) {r : HandoffRow} {τ : Datetime}
    (hwrites : c'.writes = c.writes ++ [.put (.handoff r)]) (hheld : c.held ⊆ c'.held)
    (hids : c.ids ⊆ c'.ids) (hkey : .handoff r.tenantId r.handoffId ∈ c'.held)
    (hreplaces : (Row.handoff r).Replaces (c.visible s.db)) (hτ : τ ≤ s.now)
    (hstep : HandoffStep (sc.handoffMoves r.tenantId r.handoffId) τ
      (handoffAt s.db r.tenantId r.handoffId) (some r)) : Pending m sc c' s := by
  have hvisible : c'.visible s.db = (c.visible s.db).put (.handoff r) := by
    simp [Ctx.visible, hwrites]
  have htouches : ∀ t d, touches c' t d → touches c t d := by
    rintro t d ⟨r', hr', hcell⟩
    rw [hwrites] at hr'
    rcases List.mem_append.mp hr' with hr' | hr'
    · exact ⟨r', hr', hcell⟩
    · cases List.mem_singleton.mp hr'
      cases hcell
  refine ⟨?_, ?_, ?_⟩
  · intro v hv
    rw [hwrites] at hv
    rcases List.mem_append.mp hv with hv | hv
    · obtain ⟨r, heq, hkey, hcell, hreplaces⟩ := hp.puts v hv
      exact ⟨r, heq, hheld hkey, fun t d h => hheld (hcell t d h), hreplaces⟩
    · exact ⟨.handoff r, List.mem_singleton.mp hv, hkey, fun t d h => (by cases h),
        hp.replaces hreplaces⟩
  · intro t d htouch
    obtain ⟨τ', hτ', hinv, hstep'⟩ := hp.cells t d (htouches t d htouch)
    refine ⟨τ', hτ', hinv, ?_⟩
    have hcell := cellAt_apply (c.visible s.db) t d (.put (.handoff r))
    rw [hvisible, show (c.visible s.db).put (.handoff r) = Write.apply (c.visible s.db)
      (.put (.handoff r)) from rfl, hcell]
    exact hstep'.mono id (fun _ h => h) (fun _ h => hids h) (fun _ h => h)
  · intro t h htouch
    by_cases hx : t = r.tenantId ∧ h = r.handoffId
    · obtain ⟨rfl, rfl⟩ := hx
      refine ⟨τ, hτ, ?_⟩
      have hnew : handoffAt (c'.visible s.db) r.tenantId r.handoffId = some r := by
        rw [hvisible, handoffAt_eq_some]
        exact Table.get_put_self _ (Row.handoff r)
      rwa [hnew]
    · have hne : (Row.handoff r).key ≠ .handoff t h := by
        simp only [Row.key, ne_eq, Key.handoff.injEq]
        exact fun heq => hx ⟨heq.1.symm, heq.2.symm⟩
      have hold : ∃ v ∈ c.writes, v.target = .handoff t h := by
        obtain ⟨v, hv, htarget⟩ := htouch
        rw [hwrites] at hv
        rcases List.mem_append.mp hv with hv | hv
        · exact ⟨v, hv, htarget⟩
        · rw [List.mem_singleton.mp hv] at htarget
          exact absurd htarget hne
      obtain ⟨τ', hτ', hstep'⟩ := hp.handoffs t h hold
      refine ⟨τ', hτ', ?_⟩
      rwa [hvisible, handoffAt_congr (get_put_of_ne hne)]

/-- A new event. -/
theorem insertEvent (hp : Pending m sc c s) {r : EventRow}
    (hreplaces : (Row.event r).Replaces (c.visible s.db)) :
    Pending m sc (c.insert (.event r)) s := by
  have hvisible : (c.insert (.event r)).visible s.db = (c.visible s.db).put (.event r) := by
    simp [Ctx.visible, Ctx.insert, Ctx.change]
  have hsub : c.held ⊆ (c.insert (Row.event r)).held := List.subset_cons_self _ _
  refine ⟨?_, ?_, ?_⟩
  · intro v hv
    rcases List.mem_append.mp hv with hv | hv
    · obtain ⟨r, heq, hkey, hcell, hreplaces⟩ := hp.puts v hv
      exact ⟨r, heq, hsub hkey, fun t d h => hsub (hcell t d h), hreplaces⟩
    · exact ⟨.event r, List.mem_singleton.mp hv, List.mem_cons_self, fun t d h => (by cases h),
        hp.replaces hreplaces⟩
  · rintro t d ⟨r', hr', hcell⟩
    have hold : touches c t d := by
      rcases List.mem_append.mp hr' with hr' | hr'
      · exact ⟨r', hr', hcell⟩
      · cases List.mem_singleton.mp hr'
        cases hcell
    obtain ⟨τ', hτ', hinv, hstep'⟩ := hp.cells t d hold
    refine ⟨τ', hτ', hinv, ?_⟩
    have hcell := cellAt_apply (c.visible s.db) t d (.put (.event r))
    rw [hvisible, show (c.visible s.db).put (.event r) = Write.apply (c.visible s.db)
      (.put (.event r)) from rfl, hcell]
    exact hstep'
  · rintro t h ⟨v, hv, htarget⟩
    have hne : (Row.event r).key ≠ .handoff t h := by simp [Row.key]
    have hold : ∃ v ∈ c.writes, v.target = .handoff t h := by
      rcases List.mem_append.mp hv with hv | hv
      · exact ⟨v, hv, htarget⟩
      · rw [List.mem_singleton.mp hv] at htarget
        exact absurd htarget hne
    obtain ⟨τ', hτ', hstep'⟩ := hp.handoffs t h hold
    refine ⟨τ', hτ', ?_⟩
    rwa [hvisible, handoffAt_congr (get_put_of_ne hne)]

/-! ## Ending -/

/-- A delivery or handoff nothing is pending for makes no move. -/
theorem cells_all (hp : Pending m sc c s) (hinv : RuntimeInv m s) (t d : UUID) :
    ∃ τ ≤ s.now, (cellAt s.db t d).Inv m.fenced τ ∧
      Cell.Step (sc.moves m c t) τ (cellAt s.db t d) (cellAt (c.visible s.db) t d) := by
  by_cases htouch : touches c t d
  · exact hp.cells t d htouch
  · refine ⟨s.now, le_refl _, hinv.cells t d, ?_⟩
    rw [hp.cell_untouched htouch]
    exact .same _

theorem handoffs_all (hp : Pending m sc c s) (t h : UUID) : ∃ τ ≤ s.now,
    HandoffStep (sc.handoffMoves t h) τ (handoffAt s.db t h) (handoffAt (c.visible s.db) t h) := by
  by_cases htouch : ∃ v ∈ c.writes, v.target = .handoff t h
  · exact hp.handoffs t h htouch
  · refine ⟨s.now, le_refl _, ?_⟩
    have hvisible : handoffAt (c.visible s.db) t h = handoffAt s.db t h :=
      handoffAt_congr (Table.get_install_of_forall_ne fun v hv heq => htouch ⟨v, hv, heq⟩)
    rw [hvisible]
    exact .same _

theorem events (hp : Pending m sc c s) {t v : UUID} {r : EventRow} (hr : eventAt s.db t v = some r) :
    eventAt (c.visible s.db) t v = some r := by
  rw [eventAt_eq_some] at hr ⊢
  by_cases htouch : ∃ w ∈ c.writes, w.target = .event t v
  · obtain ⟨r', hr', hget⟩ := get_install_put s.db
      (fun w hw => (hp.puts w hw).imp fun _ h => h.1) htouch
    obtain ⟨r'', heq, -, -, hreplaces⟩ := hp.puts _ hr'
    cases heq
    have hkey : r'.key = .event t v := Table.key_of_get hget
    rw [Ctx.visible, hget]
    rcases hreplaces with hnone | ⟨r₀, hr₀, hid⟩
    · rw [hkey, hr] at hnone
      cases hnone
    · rw [hkey, hr] at hr₀
      cases hr₀
      cases r' <;> simp [Row.key, Row.identity] at hkey hid
      rw [hid]
  · rwa [Ctx.visible, Table.get_install_of_forall_ne fun w hw heq => htouch ⟨w, hw, heq⟩]

/-- What an operation must show of its scope and its result when it commits `db'`. -/
structure Closing (m : Mode) (sc : Scope) (c : RuntimeCtx) (s : RuntimeStore)
    (e : Entry Key Row PyError Op Outcome) : Prop where
  wins : ∀ t i, sc.wins t i → e.op.wins t i
  new : ∀ r, sc.new r → Origin (c.visible s.db) r
  settles : ∀ t h, sc.settles t h → e.op.settles t h
  runs : ∀ t h k τ d, sc.runs t h k τ d → (commitHandoffMoves e t h).runs k τ d
  prepares : ∀ h, sc.prepares h → e.op.prepares h
  tokens : ∀ ex, executionOf e = some ex → ex.executionToken ∈ c.ids
  reports : Reports s e (c.visible s.db)

/-- The commit of what is pending. -/
theorem commits (hp : Pending m sc c s) (hinv : RuntimeInv m s)
    (hids : ∀ k ∈ c.ids, k ∉ FastapiEffects.tokens s.db s.log)
    {x : RuntimeTxn} {a : Outcome} (hbegan : Began m x s)
    (hclose : Closing m sc c s ⟨x.op, x.beganDb, x.beganAt, c.clocks, .ok a⟩) :
    Commits m s ⟨x.op, x.beganDb, x.beganAt, c.clocks, .ok a⟩ (c.visible s.db) where
  failed := fun _ hx => by cases hx
  began := hbegan.time
  allowed := hbegan.allowed
  relay := hbegan.relay
  cells := by
    intro t d
    obtain ⟨τ, hτ, hcell, hstep⟩ := hp.cells_all hinv t d
    exact ⟨τ, hτ, hcell, hstep.mono id (hclose.wins t) hids hclose.new⟩
  handoffs := by
    intro t h
    obtain ⟨τ, hτ, hstep⟩ := hp.handoffs_all t h
    exact ⟨τ, hτ, hstep.mono (hclose.settles t h) (hclose.runs t h) hclose.prepares⟩
  events := fun _ _ _ hr => hp.events hr
  reports := hclose.reports

/-- The tokens after a commit are old or made by the transaction. -/
theorem tokens_subset (hp : Pending m sc c s) (hinv : RuntimeInv m s)
    {e : Entry Key Row PyError Op Outcome} (hclose : Closing m sc c s e) :
    ∀ k ∈ FastapiEffects.tokens (c.visible s.db) (s.log ++ [e]),
      k ∈ c.ids ∨ k ∈ FastapiEffects.tokens s.db s.log := by
  rintro k (⟨t, i, a, ha, hk⟩ | ⟨e', he', ex, hex, hk⟩)
  · obtain ⟨τ, -, -, hstep⟩ := hp.cells_all hinv t a.deliveryId
    have hat := cellAt_attempts.mpr ⟨ha, rfl⟩
    rcases hstep.attempt_origin hat with ⟨a₀, ha₀, hid⟩ | hfresh
    · refine Or.inr (Or.inl ⟨t, i, a₀, (cellAt_attempts.mp ha₀).1, ?_⟩)
      rw [← hk]
      show a₀.identity.leaseToken = a.identity.leaseToken
      rw [hid]
    · exact Or.inl (hk ▸ hfresh)
  · rcases List.mem_append.mp he' with he' | he'
    · exact Or.inr (Or.inr ⟨e', he', ex, hex, hk⟩)
    · rw [List.mem_singleton.mp he'] at hex
      exact Or.inl (hk ▸ hclose.tokens ex hex)

/-- A transaction that closes may return. -/
theorem returns (hp : Pending m sc c s) {x : RuntimeTxn} {a : Outcome} (hbegan : Began m x s)
    (hclose : ∀ s', m.discipline.Env c s s' →
      Closing m sc c s' ⟨x.op, x.beganDb, x.beganAt, c.clocks, .ok a⟩) :
    m.discipline.returns x a c s := by
  intro s' henv
  have hp' := hp.env henv
  have hinv : RuntimeInv m s' := henv.inv
  have hclose' := hclose s' henv
  have hcommits := hp'.commits hinv henv.ids (hbegan.env henv) hclose'
  exact
    { inv := hcommits.inv hinv
      trans := ⟨rfl, _, rfl, hcommits⟩
      grows := hcommits.deliveriesStay
      rely := by
        intro y hy
        cases y with
        | delivery t d =>
            refine hp'.cell_untouched ?_
            rintro ⟨r, hr, hcell⟩
            obtain ⟨r', heq, -, hdelivery, -⟩ := hp'.puts _ hr
            cases heq
            exact hy (hdelivery t d hcell)
        | _ => trivial
      ids := hp'.tokens_subset hinv hclose' }

end Pending

/-- A transaction may raise when it reports no live lease as lost. -/
theorem raises_of_current {m : Mode} {c : RuntimeCtx} {s : RuntimeStore}
    {x : RuntimeTxn} {e : PyError} (hbegan : Began m x s)
    (hcurrent : ∀ s', m.discipline.Env c s s' → ∀ cd, x.op.reportsOn = some cd →
      e ≠ .leaseLost cd.delivery.deliveryId →
      Current s' ⟨x.op, x.beganDb, x.beganAt, c.clocks, .error e⟩ cd) :
    m.discipline.raises x e c s := by
  intro s' henv
  have hinv : RuntimeInv m s' := henv.inv
  have hcommits : Commits m s' ⟨x.op, x.beganDb, x.beganAt, c.clocks, .error e⟩ s'.db :=
    { failed := fun _ _ => rfl
      began := (hbegan.env henv).time
      allowed := (hbegan.env henv).allowed
      relay := hbegan.relay
      cells := fun t d => ⟨s'.now, le_refl _, hinv.cells t d, .same _⟩
      handoffs := fun t h => ⟨s'.now, le_refl _, .same _⟩
      events := fun _ _ _ hr => hr
      reports :=
        { claims := by simp [claimsOf]
          executions := by simp [executionOf]
          current := fun cd hcd hne => hcurrent s' henv cd hcd fun heq => hne (by rw [heq])
          finalized := by simp [committed]
          completed := by simp [committed] } }
  exact
    { inv := hcommits.inv hinv
      trans := ⟨rfl, _, rfl, hcommits⟩
      grows := hcommits.deliveriesStay
      rely := fun y _ => cellRely_refl y s'.db
      ids := by
        rintro k (hold | ⟨e', he', ex, hex, hk⟩)
        · exact Or.inr (Or.inl hold)
        · rcases List.mem_append.mp he' with he' | he'
          · exact Or.inr (Or.inr ⟨e', he', ex, hex, hk⟩)
          · rw [List.mem_singleton.mp he'] at hex
            simp [executionOf] at hex }

end FastapiEffects
