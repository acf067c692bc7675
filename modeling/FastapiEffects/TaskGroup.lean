import FastapiEffects.Interaction
import Mathlib.Data.List.Forall2
import Mathlib.Logic.Relation

/-! # Groups of tasks

A task group runs programs side by side, one await at a time. When a task raises, the group
cancels the others: the next await of each of them ends by the cancellation, whatever else it
would have given. When all have ended, the group raises what its tasks have raised.

`isolated` is the rule for programs that never raise: a group of them can reach the
combinations of what each of its tasks can reach alone, and no others.
-/

namespace Interaction

variable {Q : Type} {R : Q → Type} {ε α : Type}

namespace Program

/-- `p` has the history `h` when it has come to `p'`. -/
inductive Leads (p : Program Q R ε α) : List (Event Q R ε) → Program Q R ε α → Prop
  | start : Leads p [] p
  | answer {h : List (Event Q R ε)} {q : Q} {k : Except ε (R q) → Program Q R ε α}
      (hp : Leads p h (.ask q k)) (x : Except ε (R q)) : Leads p (h ++ [⟨q, x⟩]) (k x)

variable {ok : List (Event Q R ε) → Q → Prop} {post : List (Event Q R ε) → α → Prop}
  {epost : List (Event Q R ε) → ε → Prop} {h h' : List (Event Q R ε)} {p p' : Program Q R ε α}

/-- What a program may ask and how it may end, it may after any part of its history. -/
theorem Asks.of_leads (hp : p.Asks ok post epost h) (hleads : p.Leads h' p') :
    p'.Asks ok post epost (h ++ h') := by
  induction hleads with
  | start => rwa [List.append_nil]
  | answer hleads x ih =>
      rw [← List.append_assoc]
      exact ih.2 x

/-- A program that may ask less may ask more. -/
theorem Asks.mono_ask {ok' : List (Event Q R ε) → Q → Prop} (hok : ∀ h q, ok h q → ok' h q)
    (hp : p.Asks ok post epost h) : p.Asks ok' post epost h := by
  induction p generalizing h with
  | ret a => exact hp
  | raise e => exact hp
  | ask q k ih => exact ⟨hok h q hp.1, fun x => ih x (hp.2 x)⟩

theorem Leads.runs (hleads : p.Leads h p') : ∀ {h'}, p'.Runs h' → p.Runs (h ++ h') := by
  induction hleads with
  | start => exact fun hruns => hruns
  | answer hleads x ih =>
      intro h' hruns
      rw [List.append_assoc]
      exact ih (.step x hruns)

/-- Every answer of a history is one the surroundings may give. -/
def Allowed (answers : (q : Q) → Except ε (R q) → Prop) (h : List (Event Q R ε)) : Prop :=
  ∀ e ∈ h, answers e.question e.answer

theorem Allowed.snoc {answers : (q : Q) → Except ε (R q) → Prop} (hallowed : Allowed answers h)
    {q : Q} {x : Except ε (R q)} (hx : answers q x) : Allowed answers (h ++ [⟨q, x⟩]) := by
  intro e he
  rcases List.mem_append.mp he with he | he
  · exact hallowed e he
  · rw [List.mem_singleton.mp he]
    exact hx

theorem Allowed.of_append {answers : (q : Q) → Except ε (R q) → Prop}
    (hallowed : Allowed answers (h ++ h')) : Allowed answers h :=
  fun e he => hallowed e (List.mem_append_left _ he)

end Program

open Program

/-- A task: its history, what is left of its program, and whether it has been cancelled. -/
structure Task (Q : Type) (R : Q → Type) (ε : Type) where
  history : List (Event Q R ε)
  rest : Program Q R ε Unit
  wasCancelled : Bool

namespace Task

/-- `group.create_task(p)`. -/
def create (p : Program Q R ε Unit) : Task Q R ε := ⟨[], p, false⟩

/-- The task once its await has ended. -/
def resume (t : Task Q R ε) {q : Q} (k : Except ε (R q) → Program Q R ε Unit)
    (x : Except ε (R q)) (wasCancelled : Bool) : Task Q R ε :=
  ⟨t.history ++ [⟨q, x⟩], k x, wasCancelled⟩

/-- Whether the task has ended. -/
def Ended (t : Task Q R ε) : Prop := t.rest = .ret () ∨ ∃ e, t.rest = .raise e

/-- The task raised something that was not its cancellation. -/
def Failed (cancelled : ε) (t : Task Q R ε) : Prop := ∃ e, t.rest = .raise e ∧ e ≠ cancelled

/-- The task is where its program can come to alone, without being cancelled. -/
structure Alone (answers : (q : Q) → Except ε (R q) → Prop) (p : Program Q R ε Unit)
    (t : Task Q R ε) : Prop where
  leads : p.Leads t.history t.rest
  allowed : Allowed answers t.history
  not_cancelled : t.wasCancelled = false

end Task

/-- A task group: its tasks in the order of their creation. -/
abbrev Group (Q : Type) (R : Q → Type) (ε : Type) := List (Task Q R ε)

namespace Group

/-- A task has failed, and the others are cancelled. -/
def Aborting (cancelled : ε) (g : Group Q R ε) : Prop := ∃ t ∈ g, t.Failed cancelled

/-- One await of one task ends. -/
inductive Step (cancelled : ε) (answers : (q : Q) → Except ε (R q) → Prop) :
    Group Q R ε → Group Q R ε → Prop
  /-- with an answer of its surroundings -/
  | answer (before after : Group Q R ε) (t : Task Q R ε) {q : Q}
      {k : Except ε (R q) → Program Q R ε Unit} (hrest : t.rest = .ask q k) (x : Except ε (R q))
      (hx : answers q x)
      (hlive : Aborting cancelled (before ++ t :: after) → t.wasCancelled = true) :
      Step cancelled answers (before ++ t :: after) (before ++ t.resume k x t.wasCancelled :: after)
  /-- with the cancellation that the failure of another task asks for -/
  | cancel (before after : Group Q R ε) (t : Task Q R ε) {q : Q}
      {k : Except ε (R q) → Program Q R ε Unit} (hrest : t.rest = .ask q k)
      (habort : Aborting cancelled (before ++ t :: after)) (hfirst : t.wasCancelled = false) :
      Step cancelled answers (before ++ t :: after)
        (before ++ t.resume k (.error cancelled) true :: after)

/-- The states a group of programs can come to. -/
def Reaches (cancelled : ε) (answers : (q : Q) → Except ε (R q) → Prop)
    (ps : List (Program Q R ε Unit)) (g : Group Q R ε) : Prop :=
  Relation.ReflTransGen (Step cancelled answers) (ps.map Task.create) g

/-- The group's `async with` raises or ends, once all tasks have. -/
def Returns (cancelled : ε) (g : Group Q R ε) : Prop :=
  (∀ t ∈ g, t.Ended) ∧ ¬ Aborting cancelled g

/-- A program that raises only where an answer was not one that is allowed. -/
def Safe (answers : (q : Q) → Except ε (R q) → Prop) (p : Program Q R ε Unit) : Prop :=
  p.Asks (fun _ _ => True) (fun _ _ => True) (fun h _ => ¬ Allowed answers h) []

variable {cancelled : ε} {answers : (q : Q) → Except ε (R q) → Prop}
  {ps : List (Program Q R ε Unit)} {g : Group Q R ε}

/-- A safe task that is alone has not raised. -/
theorem Safe.rest_ne_raise {p : Program Q R ε Unit} {t : Task Q R ε} (hsafe : Safe answers p)
    (halone : t.Alone answers p) (e : ε) : t.rest ≠ .raise e := by
  intro hrest
  have hasks := Asks.of_leads hsafe halone.leads
  rw [hrest] at hasks
  exact hasks halone.allowed

theorem not_aborting (hsafe : ∀ p ∈ ps, Safe answers p)
    (h : List.Forall₂ (Task.Alone answers) ps g) : ¬ Aborting cancelled g := by
  rintro ⟨t, ht, e, hrest, -⟩
  obtain ⟨p, hp, halone⟩ : ∃ p ∈ ps, t.Alone answers p := by
    clear hsafe
    induction h with
    | nil => cases ht
    | cons halone _ ih =>
        rcases List.mem_cons.mp ht with rfl | ht
        · exact ⟨_, List.mem_cons_self, halone⟩
        · obtain ⟨p, hp, halone⟩ := ih ht
          exact ⟨p, List.mem_cons_of_mem _ hp, halone⟩
  exact (hsafe p hp).rest_ne_raise halone e hrest

/-- A step of a group of safe tasks is a step of one of them alone. -/
theorem alone_step (hsafe : ∀ p ∈ ps, Safe answers p) {g' : Group Q R ε}
    (h : List.Forall₂ (Task.Alone answers) ps g) (hstep : Step cancelled answers g g') :
    List.Forall₂ (Task.Alone answers) ps g' := by
  have hquiet : ¬ Aborting cancelled g := not_aborting hsafe h
  cases hstep with
  | cancel before after t hrest habort hfirst => exact absurd habort hquiet
  | answer before after t hrest x hx hlive =>
      clear hquiet hlive hsafe
      induction before generalizing ps with
      | nil =>
          cases h with
          | cons halone hafter =>
              refine .cons ⟨?_, halone.allowed.snoc hx, halone.not_cancelled⟩ hafter
              have hleads := halone.leads
              rw [hrest] at hleads
              exact hleads.answer x
      | cons u before ih =>
          cases h with
          | cons halone hrest' => exact .cons halone (ih hrest')

theorem Safe.alone_create {p : Program Q R ε Unit} : (Task.create p).Alone answers p :=
  ⟨.start, fun _ he => absurd he List.not_mem_nil, rfl⟩

theorem alone_create (ps : List (Program Q R ε Unit)) :
    List.Forall₂ (Task.Alone answers) ps (ps.map Task.create) := by
  induction ps with
  | nil => exact .nil
  | cons p ps ih => exact .cons Safe.alone_create ih

/-- A task goes its way among others that have not failed. -/
theorem steps_alone {before after : Group Q R ε} (hbefore : ∀ u ∈ before, ¬ u.Failed cancelled)
    (hafter : ∀ u ∈ after, ¬ u.Failed cancelled) {p p' : Program Q R ε Unit}
    {h : List (Event Q R ε)} (hleads : p.Leads h p') (hallowed : Allowed answers h) :
    Relation.ReflTransGen (Step cancelled answers) (before ++ Task.create p :: after)
      (before ++ ⟨h, p', false⟩ :: after) := by
  induction hleads with
  | start => exact .refl
  | @answer h q k hleads x ih =>
      have hx : answers q x := hallowed ⟨q, x⟩ (List.mem_append_right _ (List.mem_singleton.mpr rfl))
      refine (ih hallowed.of_append).tail (.answer before after ⟨h, .ask q k, false⟩ rfl x hx ?_)
      rintro ⟨u, hu, hfailed⟩
      exfalso
      rcases List.mem_append.mp hu with hu | hu
      · exact hbefore u hu hfailed
      rcases List.mem_cons.mp hu with rfl | hu
      · obtain ⟨e, hrest, -⟩ := hfailed
        cases hrest
      · exact hafter u hu hfailed

/-- A group of programs that never raise comes to the combinations of the states that each of
them comes to alone, and to no others. -/
theorem isolated (hsafe : ∀ p ∈ ps, Safe answers p) :
    Reaches cancelled answers ps g ↔ List.Forall₂ (Task.Alone answers) ps g := by
  constructor
  · intro hreach
    induction hreach with
    | refl => exact alone_create ps
    | tail _ hstep ih => exact alone_step hsafe ih hstep
  · intro h
    have hquiet : ∀ {p : Program Q R ε Unit} {t : Task Q R ε}, Safe answers p →
        t.Alone answers p → ¬ t.Failed cancelled := by
      rintro p t hp halone ⟨e, hrest, -⟩
      exact hp.rest_ne_raise halone e hrest
    -- the tasks go one after the other, each to its end of the run
    have hsteps : ∀ before : Group Q R ε, (∀ u ∈ before, ¬ u.Failed cancelled) →
        Relation.ReflTransGen (Step cancelled answers) (before ++ ps.map Task.create)
          (before ++ g) := by
      induction h with
      | nil => exact fun before _ => .refl
      | @cons p t ps g halone hrest ih =>
          intro before hbefore
          have hp := hsafe p List.mem_cons_self
          have hps := fun p' hp' => hsafe p' (List.mem_cons_of_mem _ hp')
          have hafter : ∀ u ∈ ps.map Task.create, ¬ u.Failed cancelled := by
            intro u hu
            obtain ⟨p', hp', rfl⟩ := List.mem_map.mp hu
            exact hquiet (hps p' hp') Safe.alone_create
          have hfirst := steps_alone hbefore hafter halone.leads halone.allowed
          have ht : (⟨t.history, t.rest, false⟩ : Task Q R ε) = t := by
            rw [← halone.not_cancelled]
          rw [ht] at hfirst
          have hothers := ih hps (before ++ [t]) fun u hu => by
            rcases List.mem_append.mp hu with hu | hu
            · exact hbefore u hu
            · rw [List.mem_singleton.mp hu]
              exact hquiet hp halone
          rw [List.append_assoc, List.append_assoc] at hothers
          exact hfirst.trans hothers
    exact hsteps [] fun u hu => absurd hu List.not_mem_nil

/-- Once its tasks have ended, a group of programs that never raise returns. -/
theorem returns_of_ended (hsafe : ∀ p ∈ ps, Safe answers p)
    (hreach : Reaches cancelled answers ps g) (hended : ∀ t ∈ g, t.Ended) : Returns cancelled g :=
  ⟨hended, not_aborting hsafe ((isolated hsafe).mp hreach)⟩

/-- A task that has not ended goes on with any answer, whatever the others do. -/
theorem exists_step (hsafe : ∀ p ∈ ps, Safe answers p) (hreach : Reaches cancelled answers ps g)
    {t : Task Q R ε} (ht : t ∈ g) (hended : ¬ t.Ended) :
    ∃ q, ∀ x, answers q x → ∃ before after t', g = before ++ t :: after ∧
      t'.history = t.history ++ [⟨q, x⟩] ∧ Step cancelled answers g (before ++ t' :: after) := by
  obtain ⟨before, after, rfl⟩ := List.append_of_mem ht
  have hquiet : ¬ Aborting cancelled (before ++ t :: after) :=
    not_aborting hsafe ((isolated hsafe).mp hreach)
  rcases hrest : t.rest with u | e | ⟨q, k⟩
  · exact absurd (Or.inl hrest) hended
  · exact absurd (Or.inr ⟨e, hrest⟩) hended
  · exact ⟨q, fun x hx => ⟨before, after, t.resume k x t.wasCancelled, rfl, rfl,
      .answer before after t hrest x hx fun habort => absurd habort hquiet⟩⟩

end Group

end Interaction
