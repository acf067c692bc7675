import FastapiEffects.Conformance.Models
import FastapiEffects.Core.Envelope

/-! # Reading a report back

What `render_report` writes of a report, `from_json` reads as an equal report with the same digest:
the members of its evidence have come to stand in key order and its times are those of UTC, and
nothing that is derived depends on either. What was cut when the report was made is another matter:
a container of more entries than are kept is cut once more when it is read.
-/

namespace FastapiEffects

open Python

section Reported

variable [Platform]

/-! ## Results -/

/-- The texts of a result are as its constructor leaves them. -/
structure CheckFields.Normal (f : CheckFields) : Prop where
  checkId : isCheckId f.checkId = true
  summary : cleanText f.summary 512 = f.summary
  nonempty : f.summary.isEmpty = false
  remediation : ∀ s ∈ f.remediation, cleanText s 1024 = s
  exceptionType : ∀ s ∈ f.exceptionType, cleanText s 256 = s
  evidence : ∃ e : Evidence, safeJson 0 e = .obj f.evidence

omit [Platform] in
theorem textOr_eq_ok {error : PyError} {v : Json} {s : Str} :
    textOr error v = .ok s ↔ v = .str s := by
  cases v <;> simp [textOr]

omit [Platform] in
theorem membersOr_eq_ok {error : PyError} {v : Json} {members : List (Str × Json)} :
    membersOr error v = .ok members ↔ v = .obj members := by
  cases v <;> simp [membersOr]

omit [Platform] in
theorem cleanOr_eq_ok {error : PyError} {maximum : ℕ} {v : Json} {text : Option Str}
    (h : cleanOr error maximum v = .ok text) : ∀ s ∈ text, cleanText s maximum = s := by
  unfold cleanOr at h
  split at h
  · cases h
    rintro s ⟨⟩
  · cases h
    rintro s ⟨⟩
    exact cleanText_cleanText _ maximum
  · cases h

omit [Platform] in
theorem cleanOr_textOrNull (error : PyError) (maximum : ℕ) {text : Option Str}
    (h : ∀ s ∈ text, cleanText s maximum = s) :
    cleanOr error maximum (textOrNull text) = .ok text := by
  cases text with
  | none => rfl
  | some s => exact congrArg (fun t => Except.ok (some t)) (h s rfl)

theorem CheckArgs.normal_of_postInit {c : CheckArgs} {f : CheckFields}
    (h : c.postInit = .ok f) : f.Normal := by
  obtain ⟨checkId, -, h⟩ := bind_eq_ok.mp h
  obtain ⟨_, hid, h⟩ := bind_eq_ok.mp h
  obtain ⟨durationMs, -, h⟩ := bind_eq_ok.mp h
  obtain ⟨summary, -, h⟩ := bind_eq_ok.mp h
  obtain ⟨_, hsummary, h⟩ := bind_eq_ok.mp h
  obtain ⟨evidence, hevidence, h⟩ := bind_eq_ok.mp h
  obtain ⟨remediation, hremediation, h⟩ := bind_eq_ok.mp h
  obtain ⟨exceptionType, hexception, h⟩ := bind_eq_ok.mp h
  cases h
  have hnonempty : (cleanText summary 512).isEmpty = false :=
    (Bool.not_eq_true' _).mp (check_eq_ok.mp hsummary)
  exact ⟨check_eq_ok.mp hid, cleanText_cleanText _ _, hnonempty, cleanOr_eq_ok hremediation,
    cleanOr_eq_ok hexception, c.evidence, membersOr_eq_ok.mp hevidence⟩

/-- The arguments that stand for the fields in the dictionary of a result. -/
def CheckFields.args (f : CheckFields) : CheckArgs :=
  ⟨.str f.checkId, f.invariant, f.status, f.severity, .str f.summary, .int f.durationMs,
    Evidence.ofJson (.obj f.evidence), textOrNull f.remediation, textOrNull f.exceptionType⟩

/-- What the constructor left it leaves alone the next time. -/
theorem CheckFields.Normal.postInit {f : CheckFields} (h : f.Normal)
    (hstable : StableAt 0 (.obj f.evidence)) : f.args.postInit = .ok f := by
  have hid : check (isCheckId f.checkId) (.configuration "Conformance check_id is invalid.") =
      .ok () := check_eq_ok.mpr h.checkId
  have hsummary : check (!f.summary.isEmpty)
      (.configuration "Conformance summary must not be empty.") = .ok () := by
    rw [h.nonempty]
    rfl
  have hduration (error : PyError) : naturalOr error (.int f.durationMs) = .ok f.durationMs := rfl
  simp only [CheckArgs.postInit, CheckFields.args, textOr, hid, hsummary, hduration, membersOr,
    safeJson_of_stableAt _ hstable, cleanOr_textOrNull _ _ h.remediation,
    cleanOr_textOrNull _ _ h.exceptionType, h.summary, bind, Except.bind, pure, Except.pure]

theorem CheckResult.normal (c : CheckResult) : c.Normal := by
  obtain ⟨args, hargs⟩ := c.valid
  exact CheckArgs.normal_of_postInit hargs

/-- The fields with the members of the evidence in key order. -/
def CheckFields.inOrder (f : CheckFields) : CheckFields :=
  { f with evidence := Json.inKeyOrder f.evidence }

omit [Platform] in
theorem memberOf?_invariant (i : Invariant) :
    memberOf? Invariant.all Invariant.value (.str i.value) = some i := by
  cases i <;> decide

omit [Platform] in
theorem memberOf?_status (s : CheckStatus) :
    memberOf? CheckStatus.all CheckStatus.value (.str s.value) = some s := by
  cases s <;> decide

omit [Platform] in
theorem memberOf?_severity (s : Severity) :
    memberOf? Severity.all Severity.value (.str s.value) = some s := by
  cases s <;> decide

omit [Platform] in
theorem memberOf?_profile (p : CertificationProfile) :
    memberOf? CertificationProfile.all CertificationProfile.value (.str p.value) = some p := by
  cases p <;> decide

theorem CheckFields.Normal.inOrder {f : CheckFields} (h : f.Normal)
    (hstable : StableAt 0 (.obj f.evidence)) : f.inOrder.Normal where
  checkId := h.checkId
  summary := h.summary
  nonempty := h.nonempty
  remediation := h.remediation
  exceptionType := h.exceptionType
  evidence := ⟨_, safeJson_of_stableAt _ (stableAt_sorted _ hstable)⟩

theorem CheckResult.make_of_postInit {c : CheckArgs} {f : CheckFields} (h : c.postInit = .ok f) :
    ∃ r, CheckResult.make c = .ok r ∧ r.toCheckFields = f := by
  unfold CheckResult.make
  split
  · rename_i fields hfields
    rw [h] at hfields
    cases hfields
    exact ⟨_, rfl, rfl⟩
  · rename_i e herr
    rw [h] at herr
    cases herr

omit [Platform] in
theorem textOrNull_sorted (text : Option Str) : (textOrNull text).sorted = textOrNull text := by
  cases text <;> rfl

theorem CheckResult.keys_asDict (c : CheckResult) : c.asDict.map Prod.fst = checkKeys := rfl

omit [Platform] in
theorem nodup_checkKeys : checkKeys.Nodup := by decide

/-- What `as_dict` writes of a result is read back, the members in key order. -/
theorem CheckResult.fromDict_inKeyOrder (c : CheckResult) (h : StableAt 0 (.obj c.evidence)) :
    ∃ c', CheckResult.fromDict (Json.inKeyOrder c.asDict) = .ok c' ∧
      c'.toCheckFields = c.inOrder := by
  have hkeys : ((Json.inKeyOrder c.asDict).map Prod.fst).Perm checkKeys :=
    Json.keys_inKeyOrder c.asDict
  have hnodup : (c.asDict.map Prod.fst).Nodup := nodup_checkKeys
  have hread : ∀ {name : String} {value value' : Json},
      (Json.obj c.asDict).get? name = some value → value.sorted = value' →
        ((Json.obj (Json.inKeyOrder c.asDict)).get? name).getD .null = value' :=
    Json.getD_inKeyOrder hnodup
  have hid : ((Json.obj (Json.inKeyOrder c.asDict)).get? "check_id").getD .null =
      .str c.checkId := hread rfl rfl
  have hinvariant : ((Json.obj (Json.inKeyOrder c.asDict)).get? "invariant").getD .null =
      .str c.invariant.value := hread rfl rfl
  have hstatus : ((Json.obj (Json.inKeyOrder c.asDict)).get? "status").getD .null =
      .str c.status.value := hread rfl rfl
  have hseverity : ((Json.obj (Json.inKeyOrder c.asDict)).get? "severity").getD .null =
      .str c.severity.value := hread rfl rfl
  have hsummary : ((Json.obj (Json.inKeyOrder c.asDict)).get? "summary").getD .null =
      .str c.summary := hread rfl rfl
  have hduration : ((Json.obj (Json.inKeyOrder c.asDict)).get? "duration_ms").getD .null =
      .int c.durationMs := hread rfl rfl
  have hevidence : ((Json.obj (Json.inKeyOrder c.asDict)).get? "evidence").getD .null =
      .obj (Json.inKeyOrder c.evidence) := hread rfl rfl
  have hremediation : ((Json.obj (Json.inKeyOrder c.asDict)).get? "remediation").getD .null =
      textOrNull c.remediation := hread rfl (textOrNull_sorted _)
  have hexception : ((Json.obj (Json.inKeyOrder c.asDict)).get? "exception_type").getD .null =
      textOrNull c.exceptionType := hread rfl (textOrNull_sorted _)
  obtain ⟨c', hmake, hfields⟩ := CheckResult.make_of_postInit
    ((c.normal.inOrder h).postInit (stableAt_sorted _ h))
  refine ⟨c', ?_, hfields⟩
  simp only [CheckResult.fromDict, bind_eq_ok, check_eq_ok, decide_eq_true_eq, hid, hinvariant,
    hstatus, hseverity, hsummary, hduration, hevidence, hremediation, hexception,
    memberOf?_invariant, memberOf?_status, memberOf?_severity, orRaise, membersOr,
    Except.ok.injEq, exists_eq_left']
  exact ⟨(), ⟨hkeys.subset, hkeys.symm.subset⟩, hmake⟩

/-- In either order the dictionary of a result is the same once it is in key order. -/
theorem CheckResult.sorted_asDict {c' c : CheckResult} (h : c'.toCheckFields = c.inOrder) :
    (Json.obj c'.asDict).sorted = (Json.obj c.asDict).sorted := by
  have hevidence : (Json.obj (Json.inKeyOrder c.evidence)).sorted = (Json.obj c.evidence).sorted :=
    Json.sorted_sorted (.obj c.evidence)
  rw [Json.sorted, Json.sorted]
  simp only [CheckResult.asDict, h, CheckFields.inOrder, Json.sortedMembers, hevidence]

theorem sortedItems_obj (results : List CheckResult) :
    Json.sortedItems (results.map fun c => .obj c.asDict) =
      results.map fun c => (Json.obj c.asDict).sorted := by
  induction results with
  | nil => rfl
  | cons c cs ih =>
      rw [List.map_cons, Json.sortedItems, ih]
      rfl

theorem CheckResult.equals_of_inOrder {c' c : CheckResult} (h : c'.toCheckFields = c.inOrder)
    (hplain : (Json.obj c.evidence).Plain) : c'.equals c = true := by
  have hevidence : (Json.obj (Json.inKeyOrder c.evidence)).equals (.obj c.evidence) = true :=
    Json.sorted_equals hplain
  simp only [CheckResult.equals, h, CheckFields.inOrder, hevidence, and_self, decide_true]

omit [Platform] in
theorem plain_textOrNull (text : Option Str) : (textOrNull text).Plain := by
  cases text <;> trivial

theorem CheckResult.plain_asDict (c : CheckResult) (h : (Json.obj c.evidence).Plain) :
    (Json.obj c.asDict).Plain := by
  refine ⟨nodup_checkKeys, Json.plainMembers_iff.mpr fun m hm => ?_⟩
  simp only [CheckResult.asDict, List.mem_cons, List.not_mem_nil, or_false] at hm
  rcases hm with rfl | rfl | rfl | rfl | rfl | rfl | rfl | rfl | rfl
  case inr.inr.inr.inr.inr.inr.inl => exact h
  all_goals first | trivial | exact plain_textOrNull _

/-! ## What is derived -/

variable {Z : Type} [DecidableEq Z] [HostZones Z]

/-- Results with the members of their evidence in key order. -/
def InOrder (results' results : List CheckResult) : Prop :=
  results'.map (·.toCheckFields) = results.map (·.inOrder)

namespace InOrder

variable {results' results : List CheckResult}

theorem length_eq (h : InOrder results' results) : results'.length = results.length := by
  have hlength := congrArg List.length h
  rwa [List.length_map, List.length_map] at hlength

theorem isEmpty_eq (h : InOrder results' results) : results'.isEmpty = results.isEmpty := by
  have hlength := h.length_eq
  cases results' <;> cases results <;> simp_all

/-- A question that does not look at the evidence has the same answer. -/
theorem any_eq (h : InOrder results' results) (p : CheckFields → Bool)
    (hp : ∀ f : CheckFields, p f.inOrder = p f) :
    (results'.any fun c => p c.toCheckFields) = results.any fun c => p c.toCheckFields := by
  have hany := congrArg (List.any · p) h
  simp only [List.any_map, Function.comp_def, hp] at hany
  exact hany

theorem all_eq (h : InOrder results' results) (p : CheckFields → Bool)
    (hp : ∀ f : CheckFields, p f.inOrder = p f) :
    (results'.all fun c => p c.toCheckFields) = results.all fun c => p c.toCheckFields := by
  have hall := congrArg (List.all · p) h
  simp only [List.all_map, Function.comp_def, hp] at hall
  exact hall

theorem length_filter_eq (h : InOrder results' results) (p : CheckFields → Bool)
    (hp : ∀ f : CheckFields, p f.inOrder = p f) :
    (results'.filter fun c => p c.toCheckFields).length =
      (results.filter fun c => p c.toCheckFields).length := by
  have hcount := congrArg (List.countP p) h
  simp only [List.countP_map, Function.comp_def, hp] at hcount
  rw [← List.countP_eq_length_filter, ← List.countP_eq_length_filter]
  exact hcount

theorem map_checkId (h : InOrder results' results) :
    results'.map (·.checkId) = results.map (·.checkId) := by
  have hmap := congrArg (List.map CheckFields.checkId) h
  rwa [List.map_map, List.map_map] at hmap

/-- The dictionaries are the same with their members in key order. -/
theorem asDict_eq (h : InOrder results' results) :
    (results'.map fun c => (Json.obj c.asDict).sorted) =
      results.map fun c => (Json.obj c.asDict).sorted := by
  induction results' generalizing results with
  | nil =>
      cases results with
      | nil => rfl
      | cons d ds => cases h
  | cons c cs ih =>
      cases results with
      | nil => cases h
      | cons d ds =>
          obtain ⟨hfields, hrest⟩ := List.cons.inj h
          rw [List.map_cons, List.map_cons, ih hrest, CheckResult.sorted_asDict hfields]

theorem all_equals {results' results : List CheckResult} (h : InOrder results' results)
    (hplain : ∀ c ∈ results, (Json.obj c.evidence).Plain) :
    (List.zipWith CheckResult.equals results' results).all id = true := by
  induction results' generalizing results with
  | nil => rfl
  | cons c cs ih =>
      cases results with
      | nil => rfl
      | cons d ds =>
          obtain ⟨hfields, hrest⟩ := List.cons.inj h
          have hd := CheckResult.equals_of_inOrder hfields (hplain d List.mem_cons_self)
          have hds := ih hrest fun e he => hplain e (List.mem_cons_of_mem _ he)
          rw [List.zipWith_cons_cons, List.all_cons, hds, hd]
          rfl

end InOrder

open Provenance (utcReading utcReading_eq utcReading_aware utcReading_before utcReading_equals)

omit [Platform] [DecidableEq Z] in
/-- A reading of UTC as its text. -/
theorem isoformatOf_of_utc {t : LocalDatetime Z} (h : t.tzinfo = some .utc) :
    isoformatOf t = Datetime.isoformat t.wall := by
  have hoffset : t.utcoffset = some .zero := by
    rw [LocalDatetime.utcoffset, h]
    rfl
  rw [isoformatOf, hoffset]
  rfl

namespace ConformanceReport

/-- The dictionary of a report whose times UTC has. -/
def members (r : ConformanceReport Z) : List (Str × Json) :=
  [("schema_version", .int 1),
    ("contract_version", .str "1.0"),
    ("run_id", .str r.runId.str),
    ("profile", .str r.profile.value),
    ("manifest_digest", .str r.manifestDigest),
    ("started_at", .str (Datetime.isoformat r.startedAt.instant)),
    ("finished_at", .str (Datetime.isoformat r.finishedAt.instant)),
    ("status", .str r.status.value),
    ("certified", .bool r.certified),
    ("counts", .obj r.counts),
    ("environment", .obj r.environment),
    ("results", .arr (r.results.map fun c => .obj c.asDict))]

theorem asDict_eq_ok {r : ConformanceReport Z} {value : List (Str × Json)} :
    r.asDict = .ok value ↔ Datetime.Valid r.startedAt.instant ∧
      Datetime.Valid r.finishedAt.instant ∧ value = r.members := by
  have htime : ∀ {t u : LocalDatetime Z}, t.astimezoneUtc? = some u →
      Datetime.Valid t.instant ∧ isoformatOf u = Datetime.isoformat t.instant := by
    intro t u hu
    by_cases hvalid : Datetime.Valid t.instant
    · obtain ⟨v, hv, hwall, hzone⟩ := LocalDatetime.exists_astimezoneUtc? hvalid
      rw [hu] at hv
      cases hv
      exact ⟨hvalid, by rw [isoformatOf_of_utc hzone, hwall]⟩
    · rw [LocalDatetime.astimezoneUtc?_eq_none hvalid] at hu
      cases hu
  simp only [asDict, bind_eq_ok, orRaise_eq_ok]
  constructor
  · rintro ⟨started, hstarted, finished, hfinished, hvalue⟩
    cases hvalue
    obtain ⟨hstarted, htext⟩ := htime hstarted
    obtain ⟨hfinished, htext'⟩ := htime hfinished
    exact ⟨hstarted, hfinished, by rw [htext, htext']; rfl⟩
  · rintro ⟨hstarted, hfinished, rfl⟩
    obtain ⟨u, hu, -⟩ := LocalDatetime.exists_astimezoneUtc? hstarted
    obtain ⟨v, hv, -⟩ := LocalDatetime.exists_astimezoneUtc? hfinished
    refine ⟨u, hu, v, hv, ?_⟩
    rw [(htime hu).2, (htime hv).2]
    rfl

/-- A report as it is read back: its times are of UTC, its evidence in key order. -/
structure ReadAs (r' r : ConformanceReport Z) : Prop where
  profile : r'.profile = r.profile
  manifestDigest : r'.manifestDigest = r.manifestDigest
  results : InOrder r'.results r.results
  startedAt : r'.startedAt = utcReading r.startedAt
  finishedAt : r'.finishedAt = utcReading r.finishedAt
  runId : r'.runId = r.runId
  environment : r'.environment = Json.inKeyOrder r.environment

namespace ReadAs

variable {r' r : ConformanceReport Z}

theorem status_eq (h : ReadAs r' r) : r'.status = r.status := by
  have herror := h.results.any_eq (fun f => f.status = .error) fun _ => rfl
  have hfail := h.results.any_eq (fun f => f.status = .fail) fun _ => rfl
  have hskip := h.results.all_eq (fun f => f.status = .skip) fun _ => rfl
  rw [status, status, h.results.isEmpty_eq, herror, hfail, hskip]

theorem certified_eq (h : ReadAs r' r) : r'.certified = r.certified := by
  have hpassed (i : Invariant) :=
    h.results.any_eq (fun f => f.status = .pass ∧ f.invariant = i) fun _ => rfl
  have hpass := h.results.all_eq (fun f => f.status = .pass) fun _ => rfl
  rw [certified, certified, h.profile, h.results.isEmpty_eq, hpass]
  simp only [hpassed]

theorem counts_eq (h : ReadAs r' r) : r'.counts = r.counts := by
  have hcount (s : CheckStatus) := h.results.length_filter_eq (fun f => f.status = s) fun _ => rfl
  simp only [counts, hcount]

/-- Once in key order, the dictionaries are the same. -/
theorem sorted_members (h : ReadAs r' r) (hstarted : Datetime.Valid r.startedAt.instant)
    (hfinished : Datetime.Valid r.finishedAt.instant) :
    (Json.obj r'.members).sorted = (Json.obj r.members).sorted := by
  have henvironment : (Json.obj (Json.inKeyOrder r.environment)).sorted =
      (Json.obj r.environment).sorted := Json.sorted_sorted (.obj r.environment)
  have hresults : (Json.arr (r'.results.map fun c => Json.obj c.asDict)).sorted =
      (Json.arr (r.results.map fun c => Json.obj c.asDict)).sorted := by
    rw [Json.sorted, Json.sorted, sortedItems_obj, sortedItems_obj, h.results.asDict_eq]
  have hstart : r'.startedAt.instant = r.startedAt.instant := by
    rw [h.startedAt, utcReading_eq hstarted, LocalDatetime.instant_ofUtc]
  have hfinish : r'.finishedAt.instant = r.finishedAt.instant := by
    rw [h.finishedAt, utcReading_eq hfinished, LocalDatetime.instant_ofUtc]
  rw [Json.sorted, Json.sorted]
  simp only [members, Json.sortedMembers, hresults, h.runId, h.profile, h.manifestDigest,
    hstart, hfinish, h.status_eq, h.certified_eq, h.counts_eq, h.environment, henvironment]

theorem digest_eq (h : ReadAs r' r) (hstarted : Datetime.Valid r.startedAt.instant)
    (hfinished : Datetime.Valid r.finishedAt.instant) : r'.digest = r.digest := by
  have hstart : Datetime.Valid r'.startedAt.instant := by
    rw [h.startedAt, utcReading_eq hstarted, LocalDatetime.instant_ofUtc]
    exact hstarted
  have hfinish : Datetime.Valid r'.finishedAt.instant := by
    rw [h.finishedAt, utcReading_eq hfinished, LocalDatetime.instant_ofUtc]
    exact hfinished
  have hdict' : r'.asDict = .ok r'.members := asDict_eq_ok.mpr ⟨hstart, hfinish, rfl⟩
  have hdict : r.asDict = .ok r.members := asDict_eq_ok.mpr ⟨hstarted, hfinished, rfl⟩
  have hdumps : (Json.obj r'.members).dumps = (Json.obj r.members).dumps := by
    rw [Json.dumps, Json.dumps, h.sorted_members hstarted hfinished]
  rw [digest, digest, canonicalBytes, canonicalBytes, hdict', hdict]
  simp only [bind, Except.bind, hdumps]

end ReadAs

/-! ## What is read -/

/-- What the constructor checks of the fields that are read back as they are. -/
structure Normal (f : ReportFields Z) : Prop where
  manifestDigest : isReportDigest f.manifestDigest = true
  count : f.results.length ≤ maxResults
  nodup : (f.results.map (·.checkId)).Nodup

theorem normal (r : ConformanceReport Z) : Normal r.toReportFields := by
  obtain ⟨args, h⟩ := r.valid
  generalize r.toReportFields = f at h
  obtain ⟨_, -, h⟩ := bind_eq_ok.mp h
  obtain ⟨_, -, h⟩ := bind_eq_ok.mp h
  obtain ⟨manifestDigest, -, h⟩ := bind_eq_ok.mp h
  obtain ⟨_, hdigest, h⟩ := bind_eq_ok.mp h
  obtain ⟨_, -, h⟩ := bind_eq_ok.mp h
  obtain ⟨_, -, h⟩ := bind_eq_ok.mp h
  obtain ⟨_, -, h⟩ := bind_eq_ok.mp h
  obtain ⟨_, hcount, h⟩ := bind_eq_ok.mp h
  obtain ⟨_, hnodup, h⟩ := bind_eq_ok.mp h
  obtain ⟨environment, -, h⟩ := bind_eq_ok.mp h
  cases h
  exact ⟨check_eq_ok.mp hdigest, of_decide_eq_true (check_eq_ok.mp hcount),
    of_decide_eq_true (check_eq_ok.mp hnodup)⟩

/-- The arguments that stand for the fields in the dictionary of a report. -/
def argsOf (f : ReportFields Z) : ReportArgs Z where
  profile := f.profile
  manifestDigest := .str f.manifestDigest
  results := f.results
  startedAt := f.startedAt
  finishedAt := f.finishedAt
  runId := f.runId
  contractVersion := .str "1.0"
  schemaVersion := .int 1
  environment := Evidence.ofJson (.obj f.environment)

omit [Platform] [DecidableEq Z] in
theorem checkAware_eq_ok {name : String} {t : LocalDatetime Z} (h : t.utcoffset.isSome = true) :
    checkAware name t = .ok () := by
  have hzone : t.tzinfo.isSome = true := by
    rcases hzone : t.tzinfo with _ | zone
    · rw [LocalDatetime.utcoffset, hzone] at h
      exact h
    · rfl
  exact check_eq_ok.mpr (by rw [hzone, h]; rfl)

/-- Fields that are read back are accepted. -/
theorem postInit_argsOf {f : ReportFields Z} (h : Normal f)
    (hstarted : f.startedAt.utcoffset.isSome = true)
    (hfinished : f.finishedAt.utcoffset.isSome = true)
    (horder : f.finishedAt.before f.startedAt = false)
    (hstable : StableAt 0 (.obj f.environment)) : (argsOf f).postInit = .ok f := by
  have hbefore : (¬ f.finishedAt.before f.startedAt) := by
    rw [horder]
    exact Bool.false_ne_true
  have henvironment (error : PyError) :
      membersOr error (safeJson 0 (argsOf f).environment) = .ok f.environment := by
    rw [argsOf, safeJson_of_stableAt _ hstable]
    rfl
  refine bind_eq_ok.mpr ⟨(), rfl, bind_eq_ok.mpr ⟨(), rfl, ?_⟩⟩
  refine bind_eq_ok.mpr ⟨f.manifestDigest, rfl, ?_⟩
  refine bind_eq_ok.mpr ⟨(), check_eq_ok.mpr h.manifestDigest, ?_⟩
  refine bind_eq_ok.mpr ⟨(), checkAware_eq_ok hstarted, ?_⟩
  refine bind_eq_ok.mpr ⟨(), checkAware_eq_ok hfinished, ?_⟩
  refine bind_eq_ok.mpr ⟨(), check_eq_ok.mpr (decide_eq_true hbefore), ?_⟩
  refine bind_eq_ok.mpr ⟨(), check_eq_ok.mpr (decide_eq_true h.count), ?_⟩
  refine bind_eq_ok.mpr ⟨(), check_eq_ok.mpr (decide_eq_true h.nodup), ?_⟩
  exact bind_eq_ok.mpr ⟨f.environment, henvironment _, rfl⟩

theorem make_of_postInit {args : ReportArgs Z} {f : ReportFields Z} (h : args.postInit = .ok f) :
    ∃ r, make args = .ok r ∧ r.toReportFields = f := by
  unfold make
  split
  · rename_i fields hfields
    rw [h] at hfields
    cases hfields
    exact ⟨_, rfl, rfl⟩
  · rename_i e herr
    rw [h] at herr
    cases herr

omit [Platform] in
theorem length_hexdigest (digest : Bytes) : (hexdigest digest).length = 2 * digest.length := by
  induction digest with
  | nil => rfl
  | cons b bs ih =>
      rw [hexdigest, List.flatMap_cons, List.length_append]
      show 2 + (hexdigest bs).length = 2 * (bs.length + 1)
      rw [ih]
      omega

omit [Platform] in
theorem isReportDigest_hexdigest (digest : Vector UInt8 32) :
    isReportDigest (hexdigest digest.toList) = true := by
  have hdigit : ∀ n < 16, PyChar.isIn [('a', 'f'), ('0', '9')] [] (.scalar (hexDigit n)) =
      true := by
    decide
  refine decide_eq_true ⟨?_, List.all_eq_true.mpr fun c hc => ?_⟩
  · rw [length_hexdigest, Vector.length_toList]
  · obtain ⟨b, -, hc⟩ := List.mem_flatMap.mp hc
    have hb : b.toNat < 256 := b.toNat_lt
    rcases List.mem_cons.mp hc with rfl | hc
    · exact hdigit _ (by omega)
    · rw [List.mem_singleton.mp hc]
      exact hdigit _ (by omega)

omit [Platform] in
theorem resultMembers_obj (members : List (List (Str × Json))) :
    resultMembers (members.map .obj) = .ok members := by
  induction members with
  | nil => rfl
  | cons m ms ih =>
      rw [List.map_cons, resultMembers, ih]
      rfl

/-- Every result is read back. -/
theorem mapM_fromDict {results : List CheckResult}
    (h : ∀ c ∈ results, StableAt 0 (.obj c.evidence)) : ∃ results',
      (results.map fun c => Json.inKeyOrder c.asDict).mapM CheckResult.fromDict = .ok results' ∧
        InOrder results' results := by
  induction results with
  | nil => exact ⟨[], rfl, rfl⟩
  | cons c cs ih =>
      obtain ⟨c', hc', hfields⟩ := c.fromDict_inKeyOrder (h c List.mem_cons_self)
      obtain ⟨cs', hcs', horder⟩ := ih fun d hd => h d (List.mem_cons_of_mem _ hd)
      refine ⟨c' :: cs', ?_, congrArg₂ List.cons hfields horder⟩
      rw [List.map_cons, List.mapM_cons, hc', hcs']
      rfl

/-- The digest a rendered report is given goes with it under a key of its own. -/
def rendered (r : ConformanceReport Z) (digest : Str) : List (Str × Json) :=
  r.members ++ [(("report_digest" : Str), Json.str digest)]

theorem nodup_rendered (r : ConformanceReport Z) (digest : Str) :
    ((r.rendered digest).map Prod.fst).Nodup := by
  have hkeys : (r.rendered digest).map Prod.fst = reportKeys ++ [("report_digest" : Str)] := rfl
  rw [hkeys]
  decide

omit [Platform] in
theorem get?_withoutDigest (members : List (Str × Json)) {key : Str} (hne : key ≠ "report_digest") :
    (Json.obj (withoutDigest members)).get? key = (Json.obj members).get? key := by
  have hboth : ∀ m : Str × Json, decide (decide (m.1 ≠ "report_digest") = true ∧
      decide (m.1 = key) = true) = decide (m.1 = key) := by
    intro m
    by_cases hm : m.1 = key
    · simp [hm, hne]
    · simp [hm]
  rw [withoutDigest, Json.get?, Json.get?, List.find?_filter]
  exact congrArg (fun p => (members.find? p).map Prod.snd) (funext hboth)

/-- Without the digest the keys are those of a report. -/
theorem keys_withoutDigest (r : ConformanceReport Z) (digest : Str) :
    ((withoutDigest (Json.inKeyOrder (r.rendered digest))).map Prod.fst).Perm reportKeys := by
  have hkeys : (r.rendered digest).map Prod.fst = reportKeys ++ [("report_digest" : Str)] := rfl
  have hfilter : (reportKeys ++ [("report_digest" : Str)]).filter
      (fun key : Str => decide (key ≠ "report_digest")) = reportKeys := by decide
  have hperm := (Json.keys_inKeyOrder (r.rendered digest)).filter
    fun key => decide (key ≠ ("report_digest" : Str))
  rw [hkeys, hfilter, List.filter_map] at hperm
  exact hperm

omit [Platform] [DecidableEq Z] in
theorem timeOf_isoformat {t : LocalDatetime Z} (h : Datetime.Valid t.instant) :
    timeOf (.str (Datetime.isoformat t.instant)) = .ok (utcReading t) := by
  rw [timeOf, LocalDatetime.fromisoformat?_isoformat h, utcReading_eq h]
  rfl

theorem runIdOf_str (u : UUID) : runIdOf (.str u.str) = .ok u := by
  rw [runIdOf, UUID.ofStr?_str]
  rfl

theorem plain_counts (r : ConformanceReport Z) : (Json.obj r.counts).Plain := by
  have hkeys : r.counts.map Prod.fst = CheckStatus.all.map CheckStatus.value := rfl
  refine ⟨?_, Json.plainMembers_iff.mpr fun m hm => ?_⟩
  · rw [hkeys]
    decide
  · obtain ⟨s, -, rfl⟩ := List.mem_map.mp hm
    trivial

/-- What `from_dict` compares is the same. -/
theorem confirm_eq_ok {r' r : ConformanceReport Z} (h : ReadAs r' r)
    (hstarted : Datetime.Valid r.startedAt.instant)
    (hfinished : Datetime.Valid r.finishedAt.instant) {digest : Str}
    (hdigest : r.digest = .ok digest)
    {value : List (Str × Json)}
    (hstatus : ((Json.obj value).get? "status").getD .null = .str r.status.value)
    (hcertified : ((Json.obj value).get? "certified").getD .null = .bool r.certified)
    (hcounts : ((Json.obj value).get? "counts").getD .null = (Json.obj r.counts).sorted) :
    confirm value (some digest) r' = .ok r' := by
  have hsame := Json.sorted_equals (plain_counts r)
  have hread : r'.digest = .ok digest := (h.digest_eq hstarted hfinished).trans hdigest
  simp only [confirm, bind_eq_ok, check_eq_ok, decide_eq_true_eq, hstatus, hcertified, hcounts,
    h.status_eq, h.certified_eq, h.counts_eq, hsame, hread, Except.ok.injEq, exists_eq_left']
  exact ⟨(), trivial, (), trivial, (), trivial, (), trivial, rfl⟩

theorem isReportDigest_of_digest {r : ConformanceReport Z} {digest : Str}
    (h : r.digest = .ok digest) : isReportDigest digest = true := by
  obtain ⟨bytes, -, hreturn⟩ := bind_eq_ok.mp h
  cases hreturn
  exact isReportDigest_hexdigest _

theorem suppliedDigest_inKeyOrder (r : ConformanceReport Z) {digest : Str}
    (h : isReportDigest digest = true) : suppliedDigest (Json.inKeyOrder (r.rendered digest)) =
      .ok (some digest, withoutDigest (Json.inKeyOrder (r.rendered digest))) := by
  have hget : ((Json.obj (Json.inKeyOrder (r.rendered digest))).get? "report_digest").getD .null =
      .str digest := Json.getD_inKeyOrder (r.nodup_rendered digest) rfl rfl
  have hcheck : check (isReportDigest digest)
      (.configuration "Conformance report digest must be a SHA-256 hex digest.") = .ok () :=
    check_eq_ok.mpr h
  unfold suppliedDigest
  simp only [hget, hcheck]
  rfl

/-- The fields a report is read back with. -/
def fieldsOf (r : ConformanceReport Z) (results : List CheckResult) : ReportFields Z where
  profile := r.profile
  manifestDigest := r.manifestDigest
  results := results
  startedAt := utcReading r.startedAt
  finishedAt := utcReading r.finishedAt
  runId := r.runId
  environment := Json.inKeyOrder r.environment

/-- The report that is made of the fields it is read back with. -/
theorem exists_readAs (r : ConformanceReport Z) {results : List CheckResult}
    (hin : InOrder results r.results) (henvironment : StableAt 0 (.obj r.environment))
    (hstarted : Datetime.Valid r.startedAt.instant)
    (hfinished : Datetime.Valid r.finishedAt.instant)
    (horder : r.startedAt.instant ≤ r.finishedAt.instant) :
    ∃ r' : ConformanceReport Z, make (argsOf (fieldsOf r results)) = .ok r' ∧ ReadAs r' r := by
  have hnormal : Normal (fieldsOf r results) := by
    refine ⟨r.normal.manifestDigest, ?_, ?_⟩
    · rw [fieldsOf, hin.length_eq]
      exact r.normal.count
    · rw [fieldsOf, hin.map_checkId]
      exact r.normal.nodup
  have hbefore : (utcReading r.finishedAt).before (utcReading r.startedAt) = false := by
    rw [utcReading_before hfinished hstarted]
    exact decide_eq_false (Int.not_lt.mpr horder)
  obtain ⟨r', hmake, hfields⟩ := make_of_postInit (postInit_argsOf hnormal
    (utcReading_aware hstarted) (utcReading_aware hfinished) hbefore
    (stableAt_sorted _ henvironment))
  refine ⟨r', hmake, ?_⟩
  constructor
  all_goals rw [hfields]
  all_goals first | rfl | exact hin

/-- What is rendered of a report is read back. -/
theorem fromDict_inKeyOrder (r : ConformanceReport Z)
    (hresults : ∀ c ∈ r.results, StableAt 0 (.obj c.evidence))
    (henvironment : StableAt 0 (.obj r.environment))
    (hstarted : Datetime.Valid r.startedAt.instant)
    (hfinished : Datetime.Valid r.finishedAt.instant)
    (horder : r.startedAt.instant ≤ r.finishedAt.instant) {digest : Str}
    (hdigest : r.digest = .ok digest) :
    ∃ r' : ConformanceReport Z, fromDict (Json.inKeyOrder (r.rendered digest)) = .ok r' ∧
      ReadAs r' r := by
  obtain ⟨results', hmap, hin⟩ := mapM_fromDict hresults
  obtain ⟨r', hmake, hread⟩ := r.exists_readAs hin henvironment hstarted hfinished horder
  refine ⟨r', ?_, hread⟩
  -- the dictionary without the digest
  have hsupplied := r.suppliedDigest_inKeyOrder (isReportDigest_of_digest hdigest)
  have hkeys := r.keys_withoutDigest digest
  have hfield : ∀ {name : String} {v v' : Json}, (Json.obj (r.rendered digest)).get? name = some v →
      v.sorted = v' → (name : Str) ≠ "report_digest" →
        ((Json.obj (withoutDigest (Json.inKeyOrder (r.rendered digest)))).get? name).getD .null =
          v' := by
    intro name v v' hget hv hne
    rw [get?_withoutDigest _ hne]
    exact Json.getD_inKeyOrder (r.nodup_rendered digest) hget hv
  have hitems : (Json.arr (r.results.map fun c => .obj c.asDict)).sorted =
      .arr ((r.results.map fun c => Json.inKeyOrder c.asDict).map .obj) := by
    rw [Json.sorted, sortedItems_obj, List.map_map]
    rfl
  generalize withoutDigest (Json.inKeyOrder (r.rendered digest)) = value at hsupplied hkeys hfield
  have hschema : ((Json.obj value).get? "schema_version").getD .null = .int 1 :=
    hfield rfl rfl (by decide)
  have hcontract : ((Json.obj value).get? "contract_version").getD .null = .str "1.0" :=
    hfield rfl rfl (by decide)
  have hrun : ((Json.obj value).get? "run_id").getD .null = .str r.runId.str :=
    hfield rfl rfl (by decide)
  have hprofile : ((Json.obj value).get? "profile").getD .null = .str r.profile.value :=
    hfield rfl rfl (by decide)
  have hmanifest : ((Json.obj value).get? "manifest_digest").getD .null = .str r.manifestDigest :=
    hfield rfl rfl (by decide)
  have hstart : ((Json.obj value).get? "started_at").getD .null =
      .str (Datetime.isoformat r.startedAt.instant) := hfield rfl rfl (by decide)
  have hfinish : ((Json.obj value).get? "finished_at").getD .null =
      .str (Datetime.isoformat r.finishedAt.instant) := hfield rfl rfl (by decide)
  have hstatus : ((Json.obj value).get? "status").getD .null = .str r.status.value :=
    hfield rfl rfl (by decide)
  have hcertified : ((Json.obj value).get? "certified").getD .null = .bool r.certified :=
    hfield rfl rfl (by decide)
  have hcounts : ((Json.obj value).get? "counts").getD .null = (Json.obj r.counts).sorted :=
    hfield rfl rfl (by decide)
  have henv : ((Json.obj value).get? "environment").getD .null =
      .obj (Json.inKeyOrder r.environment) := hfield rfl rfl (by decide)
  have hlist : ((Json.obj value).get? "results").getD .null =
      .arr ((r.results.map fun c => Json.inKeyOrder c.asDict).map .obj) :=
    hfield rfl hitems (by decide)
  -- each step of the reading
  refine bind_eq_ok.mpr ⟨(some digest, value), hsupplied, ?_⟩
  refine bind_eq_ok.mpr ⟨(), check_eq_ok.mpr (decide_eq_true
    ⟨hkeys.subset, hkeys.symm.subset⟩), ?_⟩
  simp only [hlist, henv, itemsOr, membersOr, resultMembers_obj, hprofile, memberOf?_profile, hrun,
    runIdOf_str, hstart, hfinish, timeOf_isoformat hstarted, timeOf_isoformat hfinished, hmap,
    orRaise, hmanifest, hcontract, hschema, bind_eq_ok, Except.ok.injEq, exists_eq_left']
  refine ⟨r', hmake, ?_⟩
  exact confirm_eq_ok hread hstarted hfinished hdigest hstatus hcertified hcounts

/-! ## The round trip -/

/-- Nothing of a normalized mapping was cut: it was made of containers that are kept whole. -/
def EvidenceWhole (members : List (Str × Json)) : Prop :=
  ∃ e : Evidence, e.Bounded ∧ safeJson 0 e = .obj members

theorem EvidenceWhole.stableAt {members : List (Str × Json)} (h : EvidenceWhole members) :
    StableAt 0 (.obj members) := by
  obtain ⟨e, hbounded, he⟩ := h
  exact he ▸ safeJson_stableAt e 0 hbounded

/-- Nothing of the evidence of a report was cut. -/
structure Whole (r : ConformanceReport Z) : Prop where
  results : ∀ c ∈ r.results, EvidenceWhole c.evidence
  environment : EvidenceWhole r.environment

/-- The report that is read back is equal to the one that was rendered. -/
theorem ReadAs.equals_eq {r' r : ConformanceReport Z} (h : ReadAs r' r)
    (hstarted : r.startedAt.InUtc)
    (hfinished : r.finishedAt.InUtc) (hresults : ∀ c ∈ r.results, (Json.obj c.evidence).Plain)
    (henvironment : (Json.obj r.environment).Plain) : r'.equals r = true := by
  have hstart : (utcReading r.startedAt).equals r.startedAt = true :=
    (utcReading_equals hstarted.1).mpr hstarted
  have hfinish : (utcReading r.finishedAt).equals r.finishedAt = true :=
    (utcReading_equals hfinished.1).mpr hfinished
  have henv : (Json.obj (Json.inKeyOrder r.environment)).equals (.obj r.environment) = true :=
    Json.sorted_equals henvironment
  simp only [equals, h.profile, h.manifestDigest, h.results.length_eq,
    h.results.all_equals hresults, h.startedAt, h.finishedAt, hstart, hfinish, h.runId,
    h.environment, henv, and_self, decide_true]

theorem plain_rendered {r : ConformanceReport Z} {digest : Str}
    (hresults : ∀ c ∈ r.results, (Json.obj c.evidence).Plain)
    (henvironment : (Json.obj r.environment).Plain) : (Json.obj (r.rendered digest)).Plain := by
  refine ⟨r.nodup_rendered digest, Json.plainMembers_iff.mpr fun m hm => ?_⟩
  simp only [rendered, members, List.cons_append, List.nil_append, List.mem_cons,
    List.not_mem_nil, or_false] at hm
  rcases hm with rfl | rfl | rfl | rfl | rfl | rfl | rfl | rfl | rfl | rfl | rfl | rfl | rfl
  any_goals trivial
  · exact r.plain_counts
  · refine Json.plainItems_iff.mpr fun x hx => ?_
    obtain ⟨c, hc, rfl⟩ := List.mem_map.mp hx
    exact c.plain_asDict (hresults c hc)

/-- What is rendered of a report is read back, as text or as bytes within the limit, as an equal
report with the same digest, where nothing of its evidence was cut and its times are readings that
UTC has, in that order. -/
theorem report_round_trip (r : ConformanceReport Z) (hwhole : r.Whole)
    (hstarted : r.startedAt.InUtc) (hfinished : r.finishedAt.InUtc)
    (horder : r.startedAt.instant ≤ r.finishedAt.instant) {text : Str}
    (hrender : r.renderJson = .ok text) {payload : JsonInput}
    (hpayload : decodeReport payload = .ok text) :
    ∃ r' : ConformanceReport Z, fromJson payload = .ok r' ∧ r'.equals r = true ∧
      r'.digest = r.digest := by
  have hresults : ∀ c ∈ r.results, StableAt 0 (.obj c.evidence) :=
    fun c hc => (hwhole.results c hc).stableAt
  have henvironment := hwhole.environment.stableAt
  have hplain : ∀ c ∈ r.results, (Json.obj c.evidence).Plain :=
    fun c hc => plain_of_stableAt _ (hresults c hc)
  have hplainEnv := plain_of_stableAt _ henvironment
  obtain ⟨value, hvalue, h⟩ := bind_eq_ok.mp hrender
  obtain ⟨digest, hdigest, h⟩ := bind_eq_ok.mp h
  obtain ⟨t, ht, hreturn⟩ := bind_eq_ok.mp h
  obtain ⟨-, -, rfl⟩ := asDict_eq_ok.mp hvalue
  cases hreturn
  -- the scanner reads the dictionary, its members in key order
  have hobject : ∀ ms : List (Str × Json), (ms.map Prod.fst).Nodup →
      reportHooks.object ms = .ok (.obj ms) := fun ms hms => if_pos hms
  have hnewline : ("\n" : Str) = [.scalar '\n'] := rfl
  have hloads : Json.loadsWith reportHooks (t ++ "\n") =
      .ok (.obj (Json.inKeyOrder (r.rendered digest))) := by
    rw [hnewline]
    exact Json.loadsWith_dumpsIndented reportHooks (orRaise_eq_ok.mp ht)
      (Loads.kept_of_plain hobject _ (Json.plain_sorted _ (plain_rendered hplain hplainEnv)))
  obtain ⟨r', hread, hreadAs⟩ := r.fromDict_inKeyOrder hresults henvironment hstarted.1 hfinished.1
    horder hdigest
  refine ⟨r', ?_, hreadAs.equals_eq hstarted hfinished hplain hplainEnv,
    hreadAs.digest_eq hstarted.1 hfinished.1⟩
  refine bind_eq_ok.mpr ⟨_, hpayload, ?_⟩
  simp only [hloads]
  exact bind_eq_ok.mpr ⟨_, rfl, hread⟩

end ConformanceReport

end Reported

/-! ## A run -/

namespace CertifiedRun

open Checksum

/-- The arguments of the one result of a run. -/
def checkArgs : CheckArgs where
  checkId := .str "core.command-identity"
  invariant := .commandIdentity
  status := .pass
  severity := .critical
  summary := .str "One request is one command."
  durationMs := .int 12
  evidence := .mapping [("requests", .int 2), ("commands", .int 1), ("token", .str "t0ken")]
  remediation := .null
  exceptionType := .null

def checked : CheckResult where
  checkId := "core.command-identity"
  invariant := .commandIdentity
  status := .pass
  severity := .critical
  summary := "One request is one command."
  durationMs := 12
  evidence := [("requests", .int 2), ("commands", .int 1), ("token", .str "<redacted>")]
  remediation := none
  exceptionType := none
  valid := ⟨checkArgs, by decide +kernel⟩

theorem started_valid : Datetime.Valid 0 := by decide

theorem finished_valid : Datetime.Valid 60000000 := by decide

/-- The arguments of the report of a run that took a minute. -/
def reportArgs : ReportArgs Empty where
  profile := .command
  manifestDigest := .str (List.replicate 64 (.scalar 'a'))
  results := [checked]
  startedAt := .ofUtc 0 started_valid
  finishedAt := .ofUtc 60000000 finished_valid
  runId := 0
  environment := .mapping [("python", .str "3.13")]

def report : ConformanceReport Empty where
  profile := .command
  manifestDigest := List.replicate 64 (.scalar 'a')
  results := [checked]
  startedAt := .ofUtc 0 started_valid
  finishedAt := .ofUtc 60000000 finished_valid
  runId := 0
  environment := [("python", .str "3.13")]
  valid := ⟨reportArgs, by decide +kernel⟩

theorem whole : report.Whole where
  results := by
    intro c hc
    rw [List.mem_singleton.mp hc]
    exact ⟨checkArgs.evidence, ⟨by decide, trivial, trivial, trivial, trivial⟩, by decide +kernel⟩
  environment := ⟨reportArgs.environment, ⟨by decide, trivial, trivial⟩, by decide +kernel⟩

/-- What is rendered of the report. -/
def text : Str := report.renderJson.toOption.getD []

theorem render_eq : report.renderJson = .ok text := by
  have hsome : report.renderJson.toOption.isSome = true := by decide +kernel
  unfold text
  cases hrender : report.renderJson with
  | ok t => rfl
  | error e =>
      rw [hrender] at hsome
      cases hsome

theorem decode_eq : ConformanceReport.decodeReport (.text text) = .ok text := by
  have hsize : (text.encode?.map List.length).any (· ≤ maxReportBytes) = true := by decide +kernel
  obtain ⟨length, hlength, hle⟩ := Option.any_eq_true _ _ |>.mp hsize
  obtain ⟨encoded, hencoded, rfl⟩ := Option.map_eq_some_iff.mp hlength
  refine bind_eq_ok.mpr ⟨encoded, orRaise_eq_ok.mpr hencoded, ?_⟩
  exact bind_eq_ok.mpr ⟨(), check_eq_ok.mpr hle, rfl⟩

end CertifiedRun

open Checksum CertifiedRun in
/-- The report of a run is read back. -/
theorem report_round_trip_run : ∃ r', ConformanceReport.fromJson (.text text) = .ok r' ∧
    r'.equals report = true ∧ r'.digest = report.digest ∧ report.certified = false := by
  obtain ⟨r', hread, hequals, hdigest⟩ := ConformanceReport.report_round_trip report whole
    (by decide) (by decide) (by decide) render_eq decode_eq
  exact ⟨r', hread, hequals, hdigest, by decide +kernel⟩

end FastapiEffects
