import FastapiEffects.Webhooks.Requests
import FastapiEffects.Webhooks.Sink

/-! # Redirects

How the redirect loop of an attempt ends. Each part of it raises an error that is not a delivery's
only when the network answered with one; the loop itself adds one exception of its own, that of
joining a `Location` to the URL of its hop.
-/

namespace FastapiEffects

open Python Interaction

/-! ## How a part of the loop ends -/

/-- An error of a delivery. -/
def Raised.IsDelivery : Raised → Prop
  | .error e => e.isDelivery = true
  | _ => False

/-- `PermanentDeliveryError`. -/
def Raised.IsPermanent : Raised → Prop
  | .error (.permanentDelivery _ _) => True
  | _ => False

/-- A result, or an error of a delivery. -/
def IsClassified {α : Type} (outcome : Except Raised α) : Prop :=
  ∀ e, outcome = .error e → e.IsDelivery

def IsPermanent {α : Type} (outcome : Except Raised α) : Prop :=
  ∃ e, outcome = .error e ∧ e.IsPermanent

theorem isClassified_ok {α : Type} (a : α) : IsClassified (.ok a) := fun _ h => by cases h

theorem isClassified_error {α : Type} {e : Raised} :
    IsClassified (.error e : Except Raised α) ↔ e.IsDelivery :=
  ⟨fun h => h e rfl, fun h _ heq => by cases heq; exact h⟩

theorem not_isPermanent_ok {α : Type} (a : α) : ¬ IsPermanent (.ok a) := fun ⟨_, h, _⟩ => by cases h

theorem isPermanent_error {α : Type} {e : Raised} :
    IsPermanent (.error e : Except Raised α) ↔ e.IsPermanent :=
  ⟨fun ⟨_, heq, h⟩ => by cases heq; exact h, fun h => ⟨e, rfl, h⟩⟩

/-- What the network is expected to answer: a context that verifies, addresses, a response or a
failure of the transport, and else an error of a delivery. -/
def Expected (sink : WebhookDeliverySink) : NetEvent → Prop
  | ⟨.sslContext, .ok context⟩ =>
      sink.transport.production = true → validateSslContext context = .ok ()
  | ⟨.resolve _ _, .ok answers⟩ => sink.production = false → answers ≠ []
  | ⟨.exchange _, .ok _⟩ => True
  | ⟨.sslContext, .error e⟩ => e.IsDelivery
  | ⟨.resolve _ _, .error e⟩ => e.IsDelivery
  | ⟨.exchange _, .error e⟩ => e = .network ∨ e.IsDelivery

instance : DecidablePred Raised.IsDelivery
  | .error e => inferInstanceAs (Decidable (e.isDelivery = true))
  | .network => inferInstanceAs (Decidable False)
  | .cancelled => inferInstanceAs (Decidable False)

instance (sink : WebhookDeliverySink) : DecidablePred (Expected sink)
  | ⟨.sslContext, .ok context⟩ => inferInstanceAs (Decidable
      (sink.transport.production = true → validateSslContext context = .ok ()))
  | ⟨.resolve _ _, .ok answers⟩ => inferInstanceAs (Decidable (sink.production = false → answers ≠ []))
  | ⟨.exchange _, .ok _⟩ => inferInstanceAs (Decidable True)
  | ⟨.sslContext, .error e⟩ => inferInstanceAs (Decidable e.IsDelivery)
  | ⟨.resolve _ _, .error e⟩ => inferInstanceAs (Decidable e.IsDelivery)
  | ⟨.exchange _, .error e⟩ => inferInstanceAs (Decidable (e = .network ∨ e.IsDelivery))

/-- An answer set that production refuses. -/
def Refuses (A : Type) [IpAddress A] (sink : WebhookDeliverySink) : NetEvent → Prop
  | ⟨.resolve _ _, .ok answers⟩ =>
      sink.production = true ∧ ∃ e, validatePublicAddresses A answers = .error e
  | _ => False

/-- The responses of a history, in order. -/
def responsesOf (history : List NetEvent) : List HttpResponseMetadata :=
  history.filterMap fun
    | ⟨.exchange _, .ok response⟩ => some response
    | _ => none

/-- How many hosts a history resolves. -/
def hops (history : List NetEvent) : ℕ :=
  history.countP fun
    | ⟨.resolve _ _, _⟩ => true
    | _ => false

/-- How a part of the loop ends: classified when all answers are expected, and only then, with a
permanent error where an answer set is refused. -/
structure HopEnded (A : Type) [IpAddress A] (sink : WebhookDeliverySink) {α : Type}
    (history : List NetEvent) (outcome : Except Raised α) (responses : List HttpResponseMetadata)
    (hosts : ℕ) : Prop where
  classified : IsClassified outcome ↔ ∀ e ∈ history, Expected sink e
  permanent : (∃ e ∈ history, Refuses A sink e) → IsPermanent outcome
  responses : responsesOf history = responses
  hosts : hops history = hosts

section HopEnded

variable {A : Type} [IpAddress A] {sink : WebhookDeliverySink} {α β : Type}
  {first rest : List NetEvent} {responses responses' : List HttpResponseMetadata} {m n : ℕ}

/-- A part that asks nothing. -/
theorem HopEnded.nil {outcome : Except Raised α} (h : IsClassified outcome) :
    HopEnded A sink [] outcome [] 0 where
  classified := ⟨fun _ _ he => absurd he List.not_mem_nil, fun _ => h⟩
  permanent := fun ⟨_, he, _⟩ => absurd he List.not_mem_nil
  responses := rfl
  hosts := rfl

/-- A part after one that ended well, or in an error that can be tried again. -/
theorem HopEnded.append {outcome : Except Raised α} {outcome' : Except Raised β}
    (h : HopEnded A sink first outcome responses m) (hclassified : IsClassified outcome)
    (hpermanent : ¬ IsPermanent outcome) (h' : HopEnded A sink rest outcome' responses' n) :
    HopEnded A sink (first ++ rest) outcome' (responses ++ responses') (m + n) where
  classified := by
    have hfirst := h.classified.mp hclassified
    rw [h'.classified]
    refine ⟨fun hrest e he => ?_, fun hall e he => hall e (List.mem_append_right _ he)⟩
    rcases List.mem_append.mp he with he | he
    · exact hfirst e he
    · exact hrest e he
  permanent := by
    rintro ⟨e, he, hrefuses⟩
    rcases List.mem_append.mp he with he | he
    · exact absurd (h.permanent ⟨e, he, hrefuses⟩) hpermanent
    · exact h'.permanent ⟨e, he, hrefuses⟩
  responses := by
    rw [responsesOf, List.filterMap_append]
    exact congrArg₂ (· ++ ·) h.responses h'.responses
  hosts := by
    rw [hops, List.countP_append]
    exact congrArg₂ (· + ·) h.hosts h'.hosts

/-- A part after one that got no response. -/
theorem HopEnded.after {outcome : Except Raised α} {outcome' : Except Raised β}
    (h : HopEnded A sink first outcome [] 0) (hclassified : IsClassified outcome)
    (hpermanent : ¬ IsPermanent outcome) (h' : HopEnded A sink rest outcome' responses n) :
    HopEnded A sink (first ++ rest) outcome' responses n := by
  have happend := h.append hclassified hpermanent h'
  rwa [List.nil_append, Nat.zero_add] at happend

/-- A part that ended in an error ends what it is a part of. -/
theorem HopEnded.error {e : Raised} (h : HopEnded A sink first (.error e : Except Raised α) responses m) :
    HopEnded A sink first (.error e : Except Raised β) responses m where
  classified := isClassified_error.trans (isClassified_error.symm.trans h.classified)
  permanent := fun hex => isPermanent_error.mpr (isPermanent_error.mp (h.permanent hex))
  responses := h.responses
  hosts := h.hosts

/-- A part that returned, with another result. -/
theorem HopEnded.ok {a : α} (h : HopEnded A sink first (.ok a) responses m) (b : β) :
    HopEnded A sink first (.ok b) responses m where
  classified := ⟨fun _ => h.classified.mp (isClassified_ok a), fun _ => isClassified_ok b⟩
  permanent := fun hrefuses => absurd (h.permanent hrefuses) (not_isPermanent_ok a)
  responses := h.responses
  hosts := h.hosts

/-- A part that asks nothing and raises a delivery error. -/
theorem HopEnded.delivery {e : PyError} (h : e.isDelivery = true) :
    HopEnded A sink [] (.error (.error e) : Except Raised α) [] 0 :=
  HopEnded.nil (isClassified_error.mpr h)

end HopEnded

/-! ## Parts that ask and parts that compute -/

section Net

variable {α β : Type} {events : List NetEvent} {outcome : Except Raised β}

theorem Net.completes_lift {x : Except PyError α} {f : α → Net β}
    (h : (Program.bind (Net.lift x) f).Completes events outcome) :
    (∃ a, x = .ok a ∧ (f a).Completes events outcome) ∨
      ∃ e, x = .error e ∧ events = [] ∧ outcome = .error (.error e) := by
  cases x with
  | ok a => exact .inl ⟨a, rfl, h⟩
  | error e =>
      cases h
      exact .inr ⟨e, rfl, rfl, rfl⟩

theorem Net.completes_ask {q : Question} {f : q.Answer → Net β}
    (h : (Program.bind (Net.ask q) f).Completes events outcome) :
    (∃ a rest, events = ⟨q, .ok a⟩ :: rest ∧ (f a).Completes rest outcome) ∨
      ∃ e, events = [⟨q, .error e⟩] ∧ outcome = .error e := by
  rcases Program.completes_bind h with ⟨a, first, rest, rfl, hfirst, hrest⟩ | ⟨e, hraised, rfl⟩
  · cases Program.completes_await hfirst
    exact .inl ⟨a, rest, rfl, hrest⟩
  · exact .inr ⟨e, Program.completes_await hraised, rfl⟩

end Net

/-! ## Addresses and contexts -/

theorem validateSslContext_eq_error {context : SslContext} {e : PyError}
    (h : validateSslContext context = .error e) : e.isDelivery = false := by
  unfold validateSslContext at h
  rcases bind_eq_error.mp h with h | ⟨_, -, h⟩
  · rw [(check_eq_error.mp h).2]
    rfl
  rcases bind_eq_error.mp h with h | ⟨_, -, h⟩
  · rw [(check_eq_error.mp h).2]
    rfl
  · rw [(check_eq_error.mp h).2]
    rfl

section Addresses

variable {A : Type} [IpAddress A]

theorem publicAddress_eq_error {value : Str} {e : PyError} (h : publicAddress A value = .error e) :
    Raised.IsPermanent (.error e) := by
  unfold publicAddress at h
  rcases bind_eq_error.mp h with h | ⟨_, -, h⟩
  · rw [(orRaise_eq_error.mp h).2]
    trivial
  rcases bind_eq_error.mp h with h | ⟨_, -, h⟩
  · rw [(check_eq_error.mp h).2]
    trivial
  rcases bind_eq_error.mp h with h | ⟨_, -, h⟩
  · rw [(check_eq_error.mp h).2]
    trivial
  · cases h

theorem normalizeAddresses_eq_error {normalized addresses : List Str} {e : PyError}
    (h : normalizeAddresses A normalized addresses = .error e) : Raised.IsPermanent (.error e) := by
  induction addresses generalizing normalized with
  | nil => cases h
  | cons value rest ih =>
      rw [normalizeAddresses] at h
      rcases bind_eq_error.mp h with h | ⟨_, -, h⟩
      · exact publicAddress_eq_error h
      · exact ih h

/-- An answer set is refused for good. -/
theorem validatePublicAddresses_eq_error {addresses : List Str} {e : PyError}
    (h : validatePublicAddresses A addresses = .error e) : Raised.IsPermanent (.error e) := by
  unfold validatePublicAddresses at h
  rcases bind_eq_error.mp h with h | ⟨_, -, h⟩
  · rw [(check_eq_error.mp h).2]
    trivial
  · exact normalizeAddresses_eq_error h

theorem normalizeAddresses_ne_nil {normalized addresses approved : List Str}
    (h : normalizeAddresses A normalized addresses = .ok approved)
    (hne : normalized ≠ [] ∨ addresses ≠ []) : approved ≠ [] := by
  induction addresses generalizing normalized with
  | nil =>
      cases h
      exact hne.resolve_right fun h => h rfl
  | cons value rest ih =>
      rw [normalizeAddresses] at h
      obtain ⟨a, -, h⟩ := bind_eq_ok.mp h
      refine ih h (.inl ?_)
      split_ifs with hseen
      · rintro rfl
        cases hseen
      · simp

theorem validatePublicAddresses_ne_nil {addresses approved : List Str}
    (h : validatePublicAddresses A addresses = .ok approved) : approved ≠ [] := by
  unfold validatePublicAddresses at h
  obtain ⟨_, hcheck, h⟩ := bind_eq_ok.mp h
  rw [check_eq_ok, decide_eq_true_eq] at hcheck
  exact normalizeAddresses_ne_nil h (.inr hcheck.1)

/-- An address is approved, or refused for good. -/
theorem approve_eq_error {transport : ExplicitIPTransport} {address : Str} {e : PyError}
    (h : transport.approve A address = .error e) : Raised.IsPermanent (.error e) := by
  unfold ExplicitIPTransport.approve at h
  split_ifs at h
  rcases bind_eq_error.mp h with h | ⟨approved, hok, h⟩
  · exact validatePublicAddresses_eq_error h
  · have hne := validatePublicAddresses_ne_nil hok
    rw [orRaise_eq_error, List.head?_eq_none_iff] at h
    exact absurd h.1 hne

end Addresses

theorem Raised.IsPermanent.isDelivery {e : Raised} (h : e.IsPermanent) : e.IsDelivery := by
  rcases e with e | _ | _
  · cases e <;> first | rfl | cases h
  · cases h
  · cases h

/-! ## The parts of a hop -/

/-- The response of what ended well. -/
def responseOf : Except Raised TransportResult → List HttpResponseMetadata
  | .ok result => [result.response]
  | .error _ => []

section Parts

variable [Platform] [Urllib] {A : Type} [IpAddress A] {sink : WebhookDeliverySink}
  {events : List NetEvent} {body : Bytes} {headers : List (Str × Str)} {endpoint : EndpointTarget}

omit [Platform] [Urllib] in
/-- One question with the answer it got. -/
theorem HopEnded.single {α : Type} {e : NetEvent} {outcome : Except Raised α}
    {responses : List HttpResponseMetadata} {n : ℕ}
    (hclassified : IsClassified outcome ↔ Expected sink e)
    (hpermanent : Refuses A sink e → IsPermanent outcome) (hresponses : responsesOf [e] = responses)
    (hhosts : hops [e] = n) : HopEnded A sink [e] outcome responses n where
  classified := by simpa using hclassified
  permanent := by simpa using hpermanent
  responses := hresponses
  hosts := hhosts

omit [Platform] [Urllib] in
/-- The exchange itself. -/
theorem exchange_ended {connection : Connection} {approved : Str}
    {outcome : Except Raised TransportResult}
    (h : (Program.bind ((Net.ask (.exchange connection)).tryCatch fun e => .raise (transportFailed e))
      fun response => (.ret ⟨approved, response⟩ : Net TransportResult)).Completes events outcome) :
    HopEnded A sink events outcome (responseOf outcome) 0 := by
  rcases Program.completes_bind h with ⟨response, first, rest, rfl, htry, hret⟩ | ⟨e, htry, rfl⟩
  · cases hret
    rcases Program.completes_tryCatch htry with ⟨_, hasked, heq⟩ | ⟨e, _, _, rfl, -, hraised⟩
    · cases heq
      rw [Program.completes_await hasked, List.append_nil]
      exact .single ⟨fun _ => trivial, fun _ => isClassified_ok _⟩ False.elim rfl rfl
    · cases hraised
  · rcases Program.completes_tryCatch htry with ⟨_, -, heq⟩ | ⟨e', first, rest, rfl, hasked, hraised⟩
    · cases heq
    · cases hraised
      rw [Program.completes_await hasked, List.append_nil]
      refine .single ?_ False.elim rfl rfl
      rw [isClassified_error]
      rcases e' with e' | _ | _
      · exact ⟨.inr, fun h => h.resolve_left fun h => by cases h⟩
      · exact ⟨fun _ => .inl rfl, fun _ => rfl⟩
      · exact ⟨.inr, fun h => h.resolve_left fun h => by cases h⟩

omit [Urllib] in
/-- One connection, up to its response. -/
theorem send_ended {address : Str} {outcome : Except Raised TransportResult}
    (hrequest : ∃ request, requestBytes endpoint body headers = .ok request)
    (h : (sink.transport.send A endpoint address body headers).Completes events outcome) :
    HopEnded A sink events outcome (responseOf outcome) 0 := by
  unfold ExplicitIPTransport.send at h
  rcases Net.completes_ask h with ⟨context, rest, rfl, hlooked⟩ | ⟨e, rfl, rfl⟩
  · rcases Net.completes_lift hlooked with ⟨_, hcontext, hvalid⟩ | ⟨e, hcontext, rfl, rfl⟩
    · have hexpected : Expected sink ⟨.sslContext, .ok context⟩ := by
        intro hproduction
        rwa [if_pos hproduction] at hcontext
      have hfirst : HopEnded A sink [⟨.sslContext, .ok context⟩] (.ok () : Except Raised Unit) [] 0 :=
        .single ⟨fun _ => hexpected, fun _ => isClassified_ok _⟩ False.elim rfl rfl
      refine hfirst.after (isClassified_ok _) (not_isPermanent_ok _) ?_
      rcases Net.completes_lift hvalid with ⟨approved, -, happroved⟩ | ⟨e, hrefused, rfl, rfl⟩
      · rcases Net.completes_lift happroved with ⟨request, -, hbuilt⟩ | ⟨e, herror, -⟩
        · rcases Net.completes_lift hbuilt with ⟨_, -, hbounded⟩ | ⟨e, hsize, rfl, rfl⟩
          · exact exchange_ended hbounded
          · rw [(check_eq_error.mp hsize).2]
            exact .delivery rfl
        · obtain ⟨request, hrequest⟩ := hrequest
          rw [hrequest] at herror
          cases herror
      · exact .delivery (approve_eq_error hrefused).isDelivery
    · split_ifs at hcontext with hproduction
      have hdelivery := validateSslContext_eq_error hcontext
      refine .single ⟨fun hclassified => ?_, fun hexpected => ?_⟩ False.elim rfl rfl
      · rw [isClassified_error, Raised.IsDelivery, hdelivery] at hclassified
        cases hclassified
      · rw [hexpected hproduction] at hcontext
        cases hcontext
  · exact .single isClassified_error False.elim rfl rfl

omit [Urllib] in
/-- The addresses of a hop, one after the other. -/
theorem attempts_ended {outcome : Except Raised TransportResult} {addresses : List Str}
    {lastError : PyError}
    (hrequest : ∃ request, requestBytes endpoint body headers = .ok request)
    (hlast : lastError.isDelivery = true)
    (h : (sink.attempts A endpoint body headers lastError addresses).Completes events outcome) :
    HopEnded A sink events outcome (responseOf outcome) 0 := by
  induction addresses generalizing lastError events with
  | nil =>
      cases h
      exact .delivery hlast
  | cons address rest ih =>
      rw [WebhookDeliverySink.attempts] at h
      rcases Program.completes_tryCatch h with ⟨result, hsent, rfl⟩ | ⟨e, first, later, rfl, hsent, hnext⟩
      · exact send_ended hrequest hsent
      · have hfirst := send_ended hrequest hsent
        rcases e with e | _ | _
        · cases e with
          | retryableDelivery code summary retryAfter =>
              refine hfirst.after (isClassified_error.mpr rfl) ?_ (ih rfl hnext)
              rw [isPermanent_error]
              exact id
          | _ =>
              cases hnext
              rw [List.append_nil]
              exact hfirst.error
        · cases hnext
          rw [List.append_nil]
          exact hfirst.error
        · cases hnext
          rw [List.append_nil]
          exact hfirst.error

omit [Platform] in
/-- A URL that is no endpoint ends its hop at once. -/
theorem resolveEndpoint_refused {url : Str} {ports : List ℕ} {most : ℕ} {production : Bool}
    {outcome : Except Raised (EndpointTarget × List Str)} {e : PyError}
    (hparse : parseEndpoint url production ports = .error e)
    (h : (resolveEndpoint A url production ports most).Completes events outcome) :
    events = [] ∧ IsPermanent outcome := by
  obtain ⟨message, rfl⟩ := parseEndpoint_eq_error hparse
  unfold resolveEndpoint at h
  rcases Net.completes_lift h with ⟨endpoint, hok, -⟩ | ⟨e, herror, rfl, rfl⟩
  · rw [hparse] at hok
    cases hok
  · rw [hparse] at herror
    cases herror
    exact ⟨rfl, isPermanent_error.mpr trivial⟩

omit [Platform] in
/-- A hop asks for the addresses of its host once. -/
theorem resolveEndpoint_ended {url : Str} {outcome : Except Raised (EndpointTarget × List Str)}
    (hparse : parseEndpoint url sink.production sink.allowedPorts = .ok endpoint)
    (h : (resolveEndpoint A url sink.production sink.allowedPorts
      sink.transport.limits.maximumAddresses).Completes events outcome) :
    HopEnded A sink events outcome [] 1 ∧ ∀ answer, outcome = .ok answer → answer.1 = endpoint := by
  unfold resolveEndpoint at h
  rcases Net.completes_lift h with ⟨endpoint', hok, hasked⟩ | ⟨e, herror, -⟩
  swap
  · rw [hparse] at herror
    cases herror
  rw [hparse] at hok
  cases hok
  rcases Net.completes_ask hasked with ⟨answers, rest, rfl, hanswered⟩ | ⟨e, rfl, rfl⟩
  swap
  · exact ⟨.single isClassified_error False.elim rfl rfl, fun answer h => by cases h⟩
  rcases Net.completes_lift hanswered with ⟨_, -, hlimited⟩ | ⟨e, hlimit, -⟩
  swap
  · have hle := sink.transport.limits.addresses_le
    rw [check_eq_error, decide_eq_false_iff_not] at hlimit
    exact absurd hle hlimit.1
  rcases Net.completes_lift hlimited with ⟨approved, hok, hret⟩ | ⟨e, hrefused, rfl, rfl⟩
  · cases hret
    refine ⟨.single ⟨fun _ hproduction => ?_, fun _ => isClassified_ok _⟩ ?_ rfl rfl, ?_⟩
    · rw [hproduction, if_neg Bool.false_ne_true] at hok
      obtain ⟨_, hne, -⟩ := bind_eq_ok.mp hok
      rwa [check_eq_ok, decide_eq_true_eq] at hne
    · rintro ⟨hproduction, e, hrefused⟩
      rw [hproduction, if_pos rfl, hrefused] at hok
      cases hok
    · rintro answer heq
      cases heq
      rfl
  · refine ⟨?_, fun answer h => by cases h⟩
    split_ifs at hrefused with hproduction
    · have hpermanent := validatePublicAddresses_eq_error hrefused
      refine .single ⟨fun _ hfalse => ?_, fun _ => isClassified_error.mpr hpermanent.isDelivery⟩
        (fun _ => isPermanent_error.mpr hpermanent) rfl rfl
      rw [hproduction] at hfalse
      cases hfalse
    · have hproduction := Bool.eq_false_iff.mpr hproduction
      rcases bind_eq_error.mp hrefused with hempty | ⟨_, -, hret⟩
      swap
      · cases hret
      rw [check_eq_error, decide_eq_false_iff_not] at hempty
      refine .single ⟨fun hclassified => ?_, fun hexpected => absurd (hexpected hproduction) hempty.1⟩
        (fun hrefuses => ?_) rfl rfl
      · rw [isClassified_error, hempty.2] at hclassified
        cases hclassified
      · rw [hrefuses.1] at hproduction
        cases hproduction

/-- The response of a hop. -/
def hopResponse : Except Raised (EndpointTarget × TransportResult) → List HttpResponseMetadata
  | .ok (_, result) => [result.response]
  | .error _ => []

theorem hop_refused {url : Str} {outcome : Except Raised (EndpointTarget × TransportResult)} {e : PyError}
    (hparse : parseEndpoint url sink.production sink.allowedPorts = .error e)
    (h : (sink.hop A body headers url).Completes events outcome) :
    events = [] ∧ IsPermanent outcome := by
  unfold WebhookDeliverySink.hop at h
  rcases Program.completes_bind h with ⟨answer, first, rest, rfl, hresolved, -⟩ | ⟨e, hraised, rfl⟩
  · exact absurd (resolveEndpoint_refused hparse hresolved).2 (not_isPermanent_ok _)
  · obtain ⟨hnone, hpermanent⟩ := resolveEndpoint_refused hparse hraised
    exact ⟨hnone, isPermanent_error.mpr (isPermanent_error.mp hpermanent)⟩

/-- One hop, up to its response. -/
theorem hop_ended {url : Str} {outcome : Except Raised (EndpointTarget × TransportResult)}
    (hparse : parseEndpoint url sink.production sink.allowedPorts = .ok endpoint)
    (hrequest : ∃ request, requestBytes endpoint body headers = .ok request)
    (h : (sink.hop A body headers url).Completes events outcome) :
    HopEnded A sink events outcome (hopResponse outcome) 1 ∧
      ∀ answer, outcome = .ok answer → answer.1 = endpoint := by
  unfold WebhookDeliverySink.hop at h
  rcases Program.completes_bind h with ⟨answer, first, rest, rfl, hresolved, hnext⟩ | ⟨e, hraised, rfl⟩
  swap
  · exact ⟨(resolveEndpoint_ended hparse hraised).1.error, fun answer h => by cases h⟩
  obtain ⟨hfirst, hendpoint⟩ := resolveEndpoint_ended hparse hresolved
  have hendpoint : answer.1 = endpoint := hendpoint answer rfl
  rw [← hendpoint] at hrequest
  rcases Program.completes_bind hnext with ⟨result, second, last, rfl, hattempts, hret⟩ | ⟨e, hraised, rfl⟩
  · cases hret
    rw [List.append_nil]
    have hsecond := attempts_ended hrequest rfl hattempts
    refine ⟨hfirst.append (isClassified_ok _) (not_isPermanent_ok _) (hsecond.ok (answer.1, result)), ?_⟩
    rintro answer' heq
    cases heq
    exact hendpoint
  · have hsecond := attempts_ended hrequest rfl hraised
    exact ⟨hfirst.append (isClassified_ok _) (not_isPermanent_ok _) hsecond.error,
      fun answer h => by cases h⟩

end Parts

/-! ## The loop -/

section Loop

variable [Urllib]

/-- Every `Location` that the loop follows can be joined to the URL of its hop. -/
def Joins (sink : WebhookDeliverySink) : ℕ → Str → List HttpResponseMetadata → Prop
  | remaining + 1, url, response :: rest => ∀ endpoint location,
      parseEndpoint url sink.production sink.allowedPorts = .ok endpoint →
      sink.isFinal response = false → usableLocation response = .ok location →
        ∃ next, Urllib.urljoin endpoint.url location = some next ∧ Joins sink remaining next rest
  | _, _, _ => True

/-- A chain of responses that leads to no endpoint: the URL of a hop is refused, or the `Location`
of a redirect is missing or blank. -/
inductive Dangling (sink : WebhookDeliverySink) : ℕ → Str → List HttpResponseMetadata → Prop
  | refused {remaining : ℕ} {url : Str} {e : PyError}
      (h : parseEndpoint url sink.production sink.allowedPorts = .error e) :
      Dangling sink remaining url []
  | unusable {remaining : ℕ} {url : Str} {endpoint : EndpointTarget}
      {response : HttpResponseMetadata} {e : PyError}
      (hparse : parseEndpoint url sink.production sink.allowedPorts = .ok endpoint)
      (hfinal : sink.isFinal response = false) (h : usableLocation response = .error e) :
      Dangling sink (remaining + 1) url [response]
  | follow {remaining : ℕ} {url location next : Str} {endpoint : EndpointTarget}
      {response : HttpResponseMetadata} {rest : List HttpResponseMetadata}
      (hparse : parseEndpoint url sink.production sink.allowedPorts = .ok endpoint)
      (hfinal : sink.isFinal response = false) (hlocation : usableLocation response = .ok location)
      (hnext : Urllib.urljoin endpoint.url location = some next)
      (h : Dangling sink remaining next rest) :
      Dangling sink (remaining + 1) url (response :: rest)

/-- How the loop ends: within its redirects, in the last response when that is final, and else in
a delivery error when every `Location` can be joined and every answer is expected, and only then. A
`Location` that is missing, blank, no endpoint or at a forbidden address is a permanent error. -/
structure LoopEnded (A : Type) [IpAddress A] (sink : WebhookDeliverySink) (remaining : ℕ) (url : Str)
    (history : List NetEvent) (outcome : Except Raised TransportResult) : Prop where
  bound : hops history ≤ remaining + 1
  final : ∀ result, outcome = .ok result →
    (responsesOf history).getLast? = some result.response ∧ sink.isFinal result.response = true
  classified : IsClassified outcome ↔
    Joins sink remaining url (responsesOf history) ∧ ∀ e ∈ history, Expected sink e
  dangling : Dangling sink remaining url (responsesOf history) → IsPermanent outcome
  forbidden : (∃ e ∈ history, Refuses A sink e) → IsPermanent outcome

variable [Platform] {A : Type} [IpAddress A] {sink : WebhookDeliverySink} {body : Bytes}
  {headers : List (Str × Str)} {history : List NetEvent} {outcome : Except Raised TransportResult}
  {url : Str}

omit [Platform] in
/-- A loop whose URL is no endpoint. -/
theorem LoopEnded.of_refused {remaining : ℕ} (h : IsPermanent outcome) :
    LoopEnded A sink remaining url [] outcome where
  bound := Nat.zero_le _
  final := by
    rintro result rfl
    exact absurd h (not_isPermanent_ok _)
  classified := by
    obtain ⟨e, rfl, he⟩ := h
    refine ⟨fun _ => ⟨?_, fun e he => absurd he List.not_mem_nil⟩, fun _ =>
      isClassified_error.mpr he.isDelivery⟩
    cases remaining <;> trivial
  dangling := fun _ => h
  forbidden := fun _ => h

section Hop

variable {remaining : ℕ} {endpoint : EndpointTarget} {response : HttpResponseMetadata}
  {location : Str}

omit [Platform] in
/-- The first hop raised. -/
theorem LoopEnded.of_error {e : Raised}
    (hparse : parseEndpoint url sink.production sink.allowedPorts = .ok endpoint)
    (h : HopEnded A sink history (.error e : Except Raised TransportResult) [] 1) :
    LoopEnded A sink remaining url history (.error e) where
  bound := by
    rw [h.hosts]
    omega
  final := fun result heq => by cases heq
  classified := by
    rw [h.classified, h.responses]
    refine ⟨fun hall => ⟨?_, hall⟩, And.right⟩
    cases remaining <;> trivial
  dangling := by
    rw [h.responses]
    intro hdangling
    cases hdangling with
    | refused herror =>
        rw [hparse] at herror
        cases herror
  forbidden := h.permanent

omit [Platform] in
/-- The first response is final. -/
theorem LoopEnded.of_final {result : TransportResult}
    (h : HopEnded A sink history (.ok result) [result.response] 1)
    (hfinal : sink.isFinal result.response = true) :
    LoopEnded A sink remaining url history (.ok result) where
  bound := by
    rw [h.hosts]
    omega
  final := by
    rintro _ heq
    cases heq
    rw [h.responses]
    exact ⟨rfl, hfinal⟩
  classified := by
    rw [h.classified, h.responses]
    refine ⟨fun hall => ⟨?_, hall⟩, And.right⟩
    cases remaining with
    | zero => trivial
    | succ remaining =>
        intro _ _ _ hnot
        rw [hfinal] at hnot
        cases hnot
  dangling := by
    rw [h.responses]
    intro hdangling
    cases hdangling with
    | unusable _ hnot _ =>
        rw [hfinal] at hnot
        cases hnot
    | follow _ hnot _ _ _ =>
        rw [hfinal] at hnot
        cases hnot
  forbidden := h.permanent

omit [Platform] in
/-- The first response is a redirect that is not followed. -/
theorem LoopEnded.of_permanent {answer : EndpointTarget × TransportResult}
    (h : HopEnded A sink history (.ok answer) [response] 1)
    (hjoins : Joins sink remaining url [response]) (hpermanent : IsPermanent outcome) :
    LoopEnded A sink remaining url history outcome where
  bound := by
    rw [h.hosts]
    omega
  final := by
    rintro result rfl
    exact absurd hpermanent (not_isPermanent_ok _)
  classified := by
    rw [h.responses, ← h.classified]
    obtain ⟨e, rfl, he⟩ := hpermanent
    exact ⟨fun _ => ⟨hjoins, isClassified_ok _⟩, fun _ => isClassified_error.mpr he.isDelivery⟩
  dangling := fun _ => hpermanent
  forbidden := fun _ => hpermanent

omit [Platform] in
/-- The first response is a redirect whose `Location` cannot be joined. -/
theorem LoopEnded.of_unjoined {answer : EndpointTarget × TransportResult}
    (h : HopEnded A sink history (.ok answer) [response] 1)
    (hparse : parseEndpoint url sink.production sink.allowedPorts = .ok endpoint)
    (hfinal : sink.isFinal response = false) (hlocation : usableLocation response = .ok location)
    (hjoin : Urllib.urljoin endpoint.url location = none) :
    LoopEnded A sink (remaining + 1) url history
      (.error (.error .value) : Except Raised TransportResult) where
  bound := by
    rw [h.hosts]
    omega
  final := fun result heq => by cases heq
  classified := by
    rw [h.responses, isClassified_error]
    refine ⟨fun hdelivery => (by cases hdelivery), fun ⟨hjoins, _⟩ => ?_⟩
    obtain ⟨next, hnext, -⟩ := hjoins endpoint location hparse hfinal hlocation
    rw [hjoin] at hnext
    cases hnext
  dangling := by
    rw [h.responses]
    intro hdangling
    cases hdangling with
    | unusable _ _ herror =>
        rw [hlocation] at herror
        cases herror
    | follow hparse' _ hlocation' hnext _ =>
        rw [hparse] at hparse'
        cases hparse'
        rw [hlocation] at hlocation'
        cases hlocation'
        rw [hjoin] at hnext
        cases hnext
  forbidden := fun hrefuses => absurd (h.permanent hrefuses) (not_isPermanent_ok _)

omit [Platform] in
/-- The first response is a redirect that is followed. -/
theorem LoopEnded.follow {answer : EndpointTarget × TransportResult} {rest : List NetEvent} {next : Str}
    (h : HopEnded A sink history (.ok answer) [response] 1)
    (hparse : parseEndpoint url sink.production sink.allowedPorts = .ok endpoint)
    (hfinal : sink.isFinal response = false) (hlocation : usableLocation response = .ok location)
    (hnext : Urllib.urljoin endpoint.url location = some next)
    (hrest : LoopEnded A sink remaining next rest outcome) :
    LoopEnded A sink (remaining + 1) url (history ++ rest) outcome := by
  have hresponses : responsesOf (history ++ rest) = response :: responsesOf rest := by
    rw [responsesOf, List.filterMap_append]
    exact congrArg (· ++ responsesOf rest) h.responses
  have hexpected := h.classified.mp (isClassified_ok _)
  refine ⟨?_, fun result heq => ?_, ?_, ?_, ?_⟩
  · have hhops : hops (history ++ rest) = hops history + hops rest := List.countP_append
    have hle := hrest.bound
    rw [hhops, h.hosts]
    omega
  · obtain ⟨hlast, hfinal⟩ := hrest.final result heq
    rw [hresponses, List.getLast?_cons, hlast]
    exact ⟨rfl, hfinal⟩
  · rw [hrest.classified, hresponses]
    constructor
    · rintro ⟨hjoins, hall⟩
      refine ⟨fun endpoint' location' hparse' _ hlocation' => ?_, fun e he => ?_⟩
      · rw [hparse] at hparse'
        cases hparse'
        rw [hlocation] at hlocation'
        cases hlocation'
        exact ⟨next, hnext, hjoins⟩
      · rcases List.mem_append.mp he with he | he
        · exact hexpected e he
        · exact hall e he
    · rintro ⟨hjoins, hall⟩
      obtain ⟨next', hnext', hjoins⟩ := hjoins endpoint location hparse hfinal hlocation
      rw [hnext] at hnext'
      cases hnext'
      exact ⟨hjoins, fun e he => hall e (List.mem_append_right _ he)⟩
  · have hlater := hrest.dangling
    rw [hresponses]
    generalize responsesOf rest = later at hlater
    intro hdangling
    cases hdangling with
    | unusable _ _ herror =>
        rw [hlocation] at herror
        cases herror
    | follow hparse' _ hlocation' hnext' hdangling =>
        rw [hparse] at hparse'
        cases hparse'
        rw [hlocation] at hlocation'
        cases hlocation'
        rw [hnext] at hnext'
        cases hnext'
        exact hlater hdangling
  · rintro ⟨e, he, hrefuses⟩
    rcases List.mem_append.mp he with he | he
    · exact absurd (h.permanent ⟨e, he, hrefuses⟩) (not_isPermanent_ok _)
    · exact hrest.forbidden ⟨e, he, hrefuses⟩

end Hop

variable (A) in
/-- What the loop does after a response that is not final. -/
def afterRedirect (sink : WebhookDeliverySink) (body : Bytes) (headers : List (Str × Str)) :
    ℕ → EndpointTarget × TransportResult → Net TransportResult
  | 0, _ => .raise (.error (.permanentDelivery "webhook.redirect_limit"
      "Webhook response exceeded its configured redirect limit."))
  | remaining + 1, answer =>
      Program.bind (Net.lift (usableLocation answer.2.response)) fun location =>
        Program.bind (Net.lift (orRaise (Urllib.urljoin answer.1.url location) .value))
          fun next => sink.deliverHops A body headers remaining next

/-- The loop is a hop, and what comes after it. -/
theorem deliverHops_eq {remaining : ℕ} : sink.deliverHops A body headers remaining url =
    Program.bind (sink.hop A body headers url) fun answer =>
      if sink.isFinal answer.2.response then .ret answer.2
      else afterRedirect A sink body headers remaining answer := by
  cases remaining with
  | zero => exact congrArg (Program.bind _) (funext fun ⟨_, _⟩ => rfl)
  | succ remaining => exact congrArg (Program.bind _) (funext fun ⟨_, _⟩ => rfl)

omit [Urllib] [Platform] in
theorem usableLocation_eq_error {response : HttpResponseMetadata} {e : PyError}
    (h : usableLocation response = .error e) : Raised.IsPermanent (.error e) := by
  unfold usableLocation at h
  rcases bind_eq_error.mp h with h | ⟨_, -, h⟩
  · rw [(orRaise_eq_error.mp h).2]
    trivial
  rcases bind_eq_error.mp h with h | ⟨_, -, h⟩
  · rw [(check_eq_error.mp h).2]
    trivial
  · cases h

/-- One round of the loop: it is left, or goes on after a response that is not final. -/
theorem deliverHops_step {remaining : ℕ}
    (hrequest : ∀ url endpoint, parseEndpoint url sink.production sink.allowedPorts = .ok endpoint →
      ∃ request, requestBytes endpoint body headers = .ok request)
    (h : (sink.deliverHops A body headers remaining url).Completes history outcome) :
    LoopEnded A sink remaining url history outcome ∨
      ∃ answer first rest, history = first ++ rest ∧
        parseEndpoint url sink.production sink.allowedPorts = .ok answer.1 ∧
        HopEnded A sink first (.ok answer) [answer.2.response] 1 ∧
        sink.isFinal answer.2.response = false ∧
        (afterRedirect A sink body headers remaining answer).Completes rest outcome := by
  rw [deliverHops_eq] at h
  cases hparse : parseEndpoint url sink.production sink.allowedPorts with
  | error e =>
      rcases Program.completes_bind h with ⟨answer, first, rest, -, hhop, -⟩ | ⟨e, hraised, rfl⟩
      · exact absurd (hop_refused hparse hhop).2 (not_isPermanent_ok _)
      · obtain ⟨rfl, hpermanent⟩ := hop_refused hparse hraised
        exact .inl (.of_refused (isPermanent_error.mpr (isPermanent_error.mp hpermanent)))
  | ok endpoint =>
      have hbuilt := hrequest url endpoint hparse
      rcases Program.completes_bind h with ⟨answer, first, rest, rfl, hhop, hnext⟩ | ⟨e, hraised, rfl⟩
      · obtain ⟨hended, hsame⟩ := hop_ended hparse hbuilt hhop
        cases hsame answer rfl
        by_cases hfinal : sink.isFinal answer.2.response = true
        · rw [if_pos hfinal] at hnext
          cases hnext
          rw [List.append_nil]
          exact .inl (.of_final (hended.ok answer.2) hfinal)
        · rw [if_neg hfinal] at hnext
          exact .inr ⟨answer, first, rest, rfl, rfl, hended, Bool.eq_false_iff.mpr hfinal, hnext⟩
      · exact .inl (.of_error hparse (hop_ended hparse hbuilt hraised).1.error)

/-- Every history of the loop that comes to its end. -/
theorem deliverHops_ended {remaining : ℕ}
    (hrequest : ∀ url endpoint, parseEndpoint url sink.production sink.allowedPorts = .ok endpoint →
      ∃ request, requestBytes endpoint body headers = .ok request)
    (h : (sink.deliverHops A body headers remaining url).Completes history outcome) :
    LoopEnded A sink remaining url history outcome := by
  induction remaining generalizing url history with
  | zero =>
      rcases deliverHops_step hrequest h with
        hended | ⟨answer, first, rest, rfl, -, hended, -, hafter⟩
      · exact hended
      · cases hafter
        rw [List.append_nil]
        exact .of_permanent hended trivial (isPermanent_error.mpr trivial)
  | succ remaining ih =>
      rcases deliverHops_step hrequest h with
        hended | ⟨answer, first, rest, rfl, hparse, hended, hfinal, hafter⟩
      · exact hended
      rcases Net.completes_lift hafter with ⟨location, hlocation, hjoined⟩ | ⟨e, hunusable, rfl, rfl⟩
      swap
      · rw [List.append_nil]
        refine .of_permanent hended ?_ (isPermanent_error.mpr (usableLocation_eq_error hunusable))
        intro _ location _ _ hlocation
        rw [hunusable] at hlocation
        cases hlocation
      rcases Net.completes_lift hjoined with ⟨next, hnext, hrest⟩ | ⟨e, hunjoined, rfl, rfl⟩
      · exact .follow hended hparse hfinal hlocation (orRaise_eq_ok.mp hnext) (ih hrest)
      · obtain ⟨hnone, rfl⟩ := orRaise_eq_error.mp hunjoined
        rw [List.append_nil]
        exact .of_unjoined hended hparse hfinal hlocation hnone

end Loop

/-! ## Redirects are classified -/

section Signed

variable [Platform]

theorem isHeader_of_plain {header : Str × Str}
    (hfree : header.1.map PyChar.asciiLower ∉ protectedHeaders) (hne : header.1 ≠ [])
    (hcolon : PyChar.scalar ':' ∉ header.1) (hname : ∀ c ∈ header.1, IsPlain c)
    (hvalue : ∀ c ∈ header.2, IsPlain c) : IsHeader header := by
  have hlower : Platform.lower header.1 = header.1.map PyChar.asciiLower :=
    Platform.lower_ascii _ (Str.isAscii_iff.mpr fun c hc => (hname c hc).1)
  have hbreak : ∀ {c : PyChar} {s : Char}, IsPlain c → ¬ IsPlain (.scalar s) → c ≠ .scalar s := by
    rintro c s hc hs rfl
    exact hs hc
  refine ⟨?_, ?_, fun c hc => ?_, fun c hc => ?_⟩
  · rwa [hlower]
  · rw [hlower]
    exact fun h => hne (List.map_eq_nil_iff.mp h)
  · have hplain := hname c hc
    have hother : c ≠ .scalar ':' := fun heq => hcolon (heq ▸ hc)
    simp [PyChar.isIn, hother, hbreak (s := '\r') hplain (by decide),
      hbreak (s := '\n') hplain (by decide)]
  · have hplain := hvalue c hc
    simp [PyChar.isIn, hbreak (s := '\r') hplain (by decide),
      hbreak (s := '\n') hplain (by decide), hbreak (s := '\x00') hplain (by decide)]

/-- The headers of a signer can be sent. -/
theorem signed_isHeader {messageId : Str} {now : Datetime} {body : Bytes} {secrets : List Bytes}
    {signed : SignedWebhookHeaders} (h : signWebhook messageId now body secrets = .ok signed) :
    ∀ header ∈ signed.values,
      IsHeader header ∧ (∀ c ∈ header.1, IsPlain c) ∧ ∀ c ∈ header.2, IsPlain c := by
  obtain ⟨hid, -, -, content, -, rfl⟩ := signWebhook_eq_ok.mp h
  have hmessage : ∀ c ∈ messageId, IsPlain c := by
    intro c hc
    have hall := (Str.fullmatch_self.mp hid).2.2 c hc
    have hlt : c.ord < 127 := PyChar.ord_lt_of_isIn (by decide) (by decide) hall
    have hle : 33 ≤ c.ord := PyChar.le_ord_of_isIn (by decide) (by decide) hall
    exact ⟨by omega, decide_eq_false (by omega)⟩
  have hsupplied : ∀ c ∈ [PyChar.scalar ' '].intercalate
      (secrets.map fun secret => signature secret content), IsPlain c := by
    refine Framing.forall_mem_intercalate (by decide) fun part hpart => ?_
    obtain ⟨secret, -, rfl⟩ := List.mem_map.mp hpart
    refine isPlain_append (by decide) fun c hc => ?_
    exact isPlain_of_isVisible ((Base64.encode_text (hmacSha256 secret content)).1 c hc)
  have hall : ∀ name : Str, name ∈ [Str.ofString "content-type", Str.ofString "webhook-id",
      Str.ofString "webhook-signature", Str.ofString "webhook-timestamp"] →
      name.map PyChar.asciiLower ∉ protectedHeaders ∧ name ≠ [] ∧ PyChar.scalar ':' ∉ name ∧
        ∀ c ∈ name, IsPlain c := by
    decide
  have hvalues : ∀ header ∈ webhookHeaders messageId (timestampText now)
      ([PyChar.scalar ' '].intercalate (secrets.map fun secret => signature secret content)),
      header.1 ∈ [Str.ofString "content-type", Str.ofString "webhook-id",
        Str.ofString "webhook-signature", Str.ofString "webhook-timestamp"] ∧
        ∀ c ∈ header.2, IsPlain c := by
    simp only [webhookHeaders, List.forall_mem_cons, List.not_mem_nil, false_imp_iff, implies_true,
      and_true]
    exact ⟨⟨by simp, by decide⟩, ⟨by simp, hmessage⟩, ⟨by simp, hsupplied⟩, by simp,
      isPlain_intText _⟩
  intro header hheader
  obtain ⟨hname, hvalue⟩ := hvalues header hheader
  obtain ⟨hfree, hne, hcolon, hplain⟩ := hall header.1 hname
  exact ⟨isHeader_of_plain hfree hne hcolon hplain hvalue, hplain, hvalue⟩

end Signed

section Classified

variable [Platform] [Urllib] [LawfulUrllib] {A : Type} [IpAddress A] {sink : WebhookDeliverySink}

/-- The redirect loop of an attempt, from any URL and with what `sign_webhook` made. It comes to
its end in any surroundings, within its redirects, and whatever the receivers answer it is
classified exactly when every `Location` it follows can be joined and nothing else is raised on the
way. -/
theorem redirects_classified {messageId : Str} {now : Datetime} {body : Bytes} {secrets : List Bytes}
    {signed : SignedWebhookHeaders} (url : Str)
    (hsigned : signWebhook messageId now body secrets = .ok signed) :
    (∀ answer, ∃ outcome, (sink.deliverHops A body signed.values
      sink.transport.limits.maximumRedirects url).Completes (Program.play answer []
        (sink.deliverHops A body signed.values sink.transport.limits.maximumRedirects url)) outcome) ∧
    ∀ history outcome, (sink.deliverHops A body signed.values
      sink.transport.limits.maximumRedirects url).Completes history outcome →
        LoopEnded A sink sink.transport.limits.maximumRedirects url history outcome := by
  refine ⟨fun answer => ⟨_, Program.completes_play⟩, fun history outcome h => ?_⟩
  exact deliverHops_ended (fun url endpoint hparse =>
    exists_requestBytes body hparse (signed_isHeader hsigned)) h

end Classified

/-! ### A host that redirects to a bracket

The receiver of a delivery to `https://a/` answers with the `Location` `http://[`, which `urljoin`
refuses.
-/

namespace Unjoined

scoped instance : IpAddress Unit where
  ipAddress? s := if s = Str.ofString "1.1.1.1" then some () else none
  compressed _ := "1.1.1.1"
  ipv4Mapped _ := false
  isGlobal _ := true
  isMulticast _ := false
  isReserved _ := false
  isUnspecified _ := false
  isLoopback _ := false
  isLinkLocal _ := false
  isPrivate _ := false

def claim : ClaimedDelivery :=
  { Redirected.claim with
    routeSnapshot := .obj [("destination", .obj [("endpoint_url", .str "https://a/"),
      ("secret_set_id", .str (5 : UUID).str)])] }

def answer : List NetEvent → (q : Question) → Except Raised q.Answer
  | _, .sslContext => .ok ⟨certRequired, true, tls12, tlsMaximumSupported⟩
  | _, .resolve _ _ => .ok ["1.1.1.1"]
  | _, .exchange _ => .ok ⟨302, [("location", "http://[")], 0⟩

end Unjoined

section Unjoined

open Checksum Hosts Unjoined

/-- The attempt at that delivery. -/
def Unjoined.attempt : Net TransportResult :=
  Redirected.sink.deliverAttempt Unit Unjoined.claim 0 fun _ => .ok [List.replicate 16 0]

theorem redirects_unjoinable :
    Unjoined.attempt.Completes (Program.play Unjoined.answer [] Unjoined.attempt)
      (.error (.error .value)) ∧
    (∀ e ∈ Program.play Unjoined.answer [] Unjoined.attempt, Expected Redirected.sink e) ∧
    ¬ IsClassified (.error (.error .value) : Except Raised TransportResult) := by
  have hfinish : Program.finish Unjoined.answer [] Unjoined.attempt = .error (.error .value) := by
    decide +kernel
  have hexpected : ∀ e ∈ Program.play Unjoined.answer [] Unjoined.attempt,
      Expected Redirected.sink e := by
    decide +kernel
  refine ⟨hfinish ▸ Program.completes_play, hexpected, ?_⟩
  rw [isClassified_error]
  decide

theorem redirects_classified_hosts : ∃ signed,
    signWebhook "m" 0 [] [List.replicate 16 0] = .ok signed ∧
    (∀ answer, ∃ outcome, (Redirected.sink.deliverHops Unit [] signed.values 3 "https://a/").Completes
      (Program.play answer [] (Redirected.sink.deliverHops Unit [] signed.values 3 "https://a/"))
      outcome) ∧
    ∀ history outcome, (Redirected.sink.deliverHops Unit [] signed.values 3 "https://a/").Completes
      history outcome → LoopEnded Unit Redirected.sink 3 "https://a/" history outcome := by
  have hsigned : ∃ signed, signWebhook "m" 0 [] [List.replicate 16 0] = .ok signed := by
    exact ⟨_, signWebhook_eq_ok.mpr ⟨by decide, by simp, by simp, _,
      signedContent_eq (by decide) (by decide +kernel), rfl⟩⟩
  obtain ⟨signed, hsigned⟩ := hsigned
  exact ⟨signed, hsigned, redirects_classified "https://a/" hsigned⟩

end Unjoined

end FastapiEffects
