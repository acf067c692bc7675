import FastapiEffects.Executors.Taskiq
import FastapiEffects.Python.Members
import FastapiEffects.Python.UuidText

/-! # The message of a handoff

`TaskiqHandoffEnvelope` as a broker carries it. What `to_dict` writes, `from_dict` reads back,
whatever order the members have come to stand in; and what `from_dict` accepts is well formed.
-/

namespace FastapiEffects

open Python

/-- What `TaskiqHandoffEnvelope.__post_init__` checks of the task. -/
def HandoffEnvelope.Valid (e : HandoffEnvelope) : Prop :=
  ("fastapi_effects_" : Str) <+: e.taskId ∧ e.taskId.length ≤ 128

instance (e : HandoffEnvelope) : Decidable e.Valid := inferInstanceAs (Decidable (_ ∧ _))

/-- `TaskiqHandoffEnvelope(schema_version=..., ...)`. -/
def HandoffEnvelope.make (schemaVersion : ℤ) (e : HandoffEnvelope) :
    Except PyError HandoffEnvelope := do
  check e.Valid (.configuration "Taskiq task identity is invalid.")
  check (schemaVersion = 1) (.configuration "Taskiq handoff envelope revision is unsupported.")
  return e

/-- `to_dict`. -/
def HandoffEnvelope.toDict (e : HandoffEnvelope) : List (Str × Json) :=
  [("schema_version", .int 1),
    ("tenant_id", .str e.tenantId.str),
    ("handoff_id", .str e.handoffId.str),
    ("delivery_id", .str e.deliveryId.str),
    ("attempt_id", .str e.attemptId.str),
    ("task_id", .str e.taskId),
    ("handoff_token", .str e.handoffToken.str)]

/-- The fields `from_dict` expects. -/
def envelopeKeys : List Str :=
  ["schema_version", "tenant_id", "handoff_id", "delivery_id", "attempt_id", "task_id",
    "handoff_token"]

/-- `except (KeyError, TypeError, ValueError)` of `from_dict`. -/
def orInvalidEnvelope {α : Type} : Except PyError α → Except PyError α
  | .error .key | .error .type | .error .value =>
      .error (.configuration "Taskiq handoff envelope is invalid.")
  | x => x

/-- `_text`. -/
def envelopeText : Json → Except PyError Str
  | .str s => .ok s
  | _ => .error .type

/-- `isinstance(value, int)`, and not a `bool`. -/
def envelopeInteger : Json → Except PyError ℤ
  | .int n => .ok n
  | _ => .error .type

section Reading

variable [Platform]

/-- `UUID(_text(value))`. -/
def envelopeUuid (value : Json) : Except PyError UUID := do
  orRaise (UUID.ofStr? Platform.decimal (← envelopeText value)) .value

/-- `from_dict`. -/
def HandoffEnvelope.fromDict (value : List (Str × Json)) : Except PyError HandoffEnvelope := do
  let keys := value.map Prod.fst
  check (keys ⊆ envelopeKeys ∧ envelopeKeys ⊆ keys)
    (.configuration "Taskiq handoff envelope fields are invalid.")
  let field (name : String) : Json := (Json.get? (.obj value) name).getD .null
  orInvalidEnvelope do
    let schemaVersion ← envelopeInteger (field "schema_version")
    let taskId ← envelopeText (field "task_id")
    let tenantId ← envelopeUuid (field "tenant_id")
    let handoffId ← envelopeUuid (field "handoff_id")
    let deliveryId ← envelopeUuid (field "delivery_id")
    let attemptId ← envelopeUuid (field "attempt_id")
    let handoffToken ← envelopeUuid (field "handoff_token")
    HandoffEnvelope.make schemaVersion
      ⟨tenantId, handoffId, deliveryId, attemptId, taskId, handoffToken⟩

/-! ## There and back -/

omit [Platform] in
theorem HandoffEnvelope.make_eq_ok {n : ℤ} {e e' : HandoffEnvelope} :
    HandoffEnvelope.make n e = .ok e' ↔ e.Valid ∧ n = 1 ∧ e' = e := by
  simp only [HandoffEnvelope.make, bind_eq_ok, check_eq_ok, decide_eq_true_eq]
  constructor
  · rintro ⟨-, hvalid, -, hversion, hreturn⟩
    cases hreturn
    exact ⟨hvalid, hversion, rfl⟩
  · rintro ⟨hvalid, hversion, rfl⟩
    exact ⟨(), hvalid, (), hversion, rfl⟩

omit [Platform] in
theorem orInvalidEnvelope_eq_ok {α : Type} {x : Except PyError α} {a : α} :
    orInvalidEnvelope x = .ok a ↔ x = .ok a := by
  unfold orInvalidEnvelope
  split <;> simp

theorem envelopeUuid_str (u : UUID) : envelopeUuid (.str u.str) = .ok u := by
  simp only [envelopeUuid, envelopeText, bind, Except.bind, UUID.ofStr?_str, orRaise]

omit [Platform] in
theorem HandoffEnvelope.keys_toDict (e : HandoffEnvelope) :
    e.toDict.map Prod.fst = envelopeKeys := rfl

omit [Platform] in
theorem nodup_envelopeKeys : envelopeKeys.Nodup := by decide

omit [Platform] in
/-- The order of the members does not matter to a lookup. -/
theorem get?_of_perm {ms ns : List (Str × Json)} (hperm : ms.Perm ns)
    (hns : (ns.map Prod.fst).Nodup)
    (key : Str) : (Json.obj ms).get? key = (Json.obj ns).get? key := by
  have hms : (ms.map Prod.fst).Nodup := (hperm.map Prod.fst).nodup_iff.mpr hns
  cases hget : (Json.obj ns).get? key with
  | none =>
      rw [Json.get?_eq_none] at hget ⊢
      rw [(hperm.map Prod.fst).mem_iff]
      exact hget
  | some value =>
      rw [Json.get?_eq_some hns] at hget
      rw [Json.get?_eq_some hms, hperm.mem_iff]
      exact hget

/-- What `to_dict` writes is read back, in whatever order the members stand. -/
theorem HandoffEnvelope.fromDict_of_perm {e : HandoffEnvelope} (he : e.Valid)
    {members : List (Str × Json)} (hperm : members.Perm e.toDict) :
    HandoffEnvelope.fromDict members = .ok e := by
  have hkeys : (members.map Prod.fst).Perm envelopeKeys := hperm.map Prod.fst
  have hget : ∀ key : Str, (Json.obj members).get? key = (Json.obj e.toDict).get? key :=
    get?_of_perm hperm (by rw [e.keys_toDict]; exact nodup_envelopeKeys)
  have hread : ∀ {name : String} {value : Json}, (Json.obj e.toDict).get? name = some value →
      ((Json.obj members).get? name).getD .null = value := by
    intro name value h
    rw [hget, h]
    rfl
  have hversion : ((Json.obj members).get? "schema_version").getD .null = .int 1 := hread rfl
  have htenant : ((Json.obj members).get? "tenant_id").getD .null = .str e.tenantId.str := hread rfl
  have hhandoff : ((Json.obj members).get? "handoff_id").getD .null = .str e.handoffId.str :=
    hread rfl
  have hdelivery : ((Json.obj members).get? "delivery_id").getD .null = .str e.deliveryId.str :=
    hread rfl
  have hattempt : ((Json.obj members).get? "attempt_id").getD .null = .str e.attemptId.str :=
    hread rfl
  have htask : ((Json.obj members).get? "task_id").getD .null = .str e.taskId := hread rfl
  have htoken : ((Json.obj members).get? "handoff_token").getD .null = .str e.handoffToken.str :=
    hread rfl
  simp only [HandoffEnvelope.fromDict, bind_eq_ok, check_eq_ok, decide_eq_true_eq,
    orInvalidEnvelope_eq_ok, hversion, htenant, hhandoff, hdelivery, hattempt, htask, htoken,
    envelopeUuid_str, envelopeText, envelopeInteger, Except.ok.injEq, exists_eq_left']
  refine ⟨(), ⟨hkeys.subset, hkeys.symm.subset⟩, ?_⟩
  exact HandoffEnvelope.make_eq_ok.mpr ⟨he, rfl, rfl⟩

/-- What `from_dict` accepts is well formed. -/
theorem HandoffEnvelope.valid_of_fromDict {members : List (Str × Json)} {e : HandoffEnvelope}
    (h : HandoffEnvelope.fromDict members = .ok e) : e.Valid := by
  simp only [HandoffEnvelope.fromDict, bind_eq_ok, orInvalidEnvelope_eq_ok] at h
  obtain ⟨-, -, n, -, s, -, t, -, i, -, d, -, a, -, k, -, hmake⟩ := h
  obtain ⟨hvalid, -, rfl⟩ := HandoffEnvelope.make_eq_ok.mp hmake
  exact hvalid

omit [Platform] in
/-- The envelope of a handoff that `prepare` stores. -/
theorem valid_preparedHandoff (claim : ClaimedDelivery) (handoffId handoffToken : UUID)
    (preparedAt : Datetime) :
    (preparedHandoff claim handoffId handoffToken preparedAt).envelope.Valid := by
  constructor
  · exact List.prefix_append _ _
  · show (stableTaskId claim.attempt.attemptId).length ≤ 128
    rw [stableTaskId, List.length_append, UUID.length_hex]
    decide

omit [Platform] in
/-- The members of a message in the order of their keys. -/
def HandoffEnvelope.sortedDict (e : HandoffEnvelope) : List (Str × Json) :=
  [("attempt_id", .str e.attemptId.str),
    ("delivery_id", .str e.deliveryId.str),
    ("handoff_id", .str e.handoffId.str),
    ("handoff_token", .str e.handoffToken.str),
    ("schema_version", .int 1),
    ("task_id", .str e.taskId),
    ("tenant_id", .str e.tenantId.str)]

omit [Platform] in
theorem HandoffEnvelope.sorted_toDict (e : HandoffEnvelope) :
    (Json.obj e.toDict).sorted = .obj e.sortedDict := rfl

omit [Platform] in
theorem HandoffEnvelope.sortedDict_perm (e : HandoffEnvelope) : e.sortedDict.Perm e.toDict :=
  Json.sortMembers_perm e.toDict

omit [Platform] in
/-- As JSON text. -/
theorem HandoffEnvelope.loads_dumps (e : HandoffEnvelope) :
    ∃ t, (Json.obj e.toDict).dumps = some t ∧ Json.loads t = .ok (.obj e.sortedDict) := by
  obtain ⟨t, ht⟩ : ∃ t, (Json.obj e.toDict).dumps = some t := ⟨_, rfl⟩
  refine ⟨t, ht, ?_⟩
  rw [loads_eq_loadsWith, ← e.sorted_toDict]
  refine Json.loadsWith_dumps dictHooks ht ?_
  rw [e.sorted_toDict]
  have hunique : (e.sortedDict.map Prod.fst).Nodup :=
    (e.sortedDict_perm.map Prod.fst).nodup_iff.mpr nodup_envelopeKeys
  refine ⟨?_, trivial, trivial, trivial, trivial, trivial, trivial, trivial, trivial⟩
  show Except.ok (Json.obj (dictOf e.sortedDict)) = _
  rw [dictOf_of_nodup hunique]

/-- A handoff survives the broker: a worker reads back the envelope that was sent, whatever order
the members of the message have come to stand in, and also from its JSON text. What a worker
accepts is well formed, and so is what `prepare` stores. -/
theorem handoff_message_round_trip :
    (∀ e : HandoffEnvelope, e.Valid →
      (∀ members, members.Perm e.toDict → HandoffEnvelope.fromDict members = .ok e) ∧
      ∃ t members, (Json.obj e.toDict).dumps = some t ∧ Json.loads t = .ok (.obj members) ∧
        HandoffEnvelope.fromDict members = .ok e) ∧
    (∀ members e, HandoffEnvelope.fromDict members = .ok e → e.Valid) ∧
    ∀ claim handoffId handoffToken preparedAt,
      (preparedHandoff claim handoffId handoffToken preparedAt).envelope.Valid := by
  refine ⟨fun e he => ⟨fun members hperm => ?_, ?_⟩, fun members e h => ?_, ?_⟩
  · exact HandoffEnvelope.fromDict_of_perm he hperm
  · obtain ⟨t, ht, hloads⟩ := e.loads_dumps
    refine ⟨t, e.sortedDict, ht, hloads, HandoffEnvelope.fromDict_of_perm he ?_⟩
    exact e.sortedDict_perm
  · exact HandoffEnvelope.valid_of_fromDict h
  · exact valid_preparedHandoff

end Reading

open Checksum in
/-- The message of the handoff of attempt 4. -/
theorem handoff_message_round_trip_stable : ∃ t members,
    (Json.obj (HandoffEnvelope.toDict ⟨1, 2, 3, 4, stableTaskId 4, 5⟩)).dumps = some t ∧
      Json.loads t = .ok (.obj members) ∧
      HandoffEnvelope.fromDict members = .ok ⟨1, 2, 3, 4, stableTaskId 4, 5⟩ :=
  (handoff_message_round_trip.1 ⟨1, 2, 3, 4, stableTaskId 4, 5⟩ (by decide)).2

end FastapiEffects
