import FastapiEffects.Webhooks.Chunked

/-! # What reading a response ends in

`parse_response` keeps to its limits on every stream and stops after as many reads as they
allow. It raises nothing but delivery errors, except the `ValueError` for a content length whose
digits `int` refuses.
-/

namespace FastapiEffects

open Python StreamReader

/-! ## The body -/

section Body

variable {limits : ResponseLimits} {fuel total total' : ℕ} {r r' : StreamReader}

theorem ChunkedBody.Within.reads_le {number? : Bytes → Option ℤ} {limit : ℕ} {body : ChunkedBody}
    (h : body.Within limits 0) (hchunked : IsChunked number? limit body) :
    body.reads ≤ 3 * limits.maximumBodyBytes + limits.maximumHeaderBytes + 1 := by
  have htrailers : body.trailers.length + 1 ≤ (ended body.trailers).length :=
    length_le_ended fun line hmem => (hchunked.isTrailer line hmem).1
  have hchunks : body.chunks.length ≤ body.total := by
    rw [ChunkedBody.total]
    calc body.chunks.length = (body.chunks.map fun _ => 1).sum := by simp
      _ ≤ (body.chunks.map fun chunk => chunk.data.length).sum :=
        List.sum_le_sum fun chunk hmem => (hchunked.isChunk chunk hmem).pos
  have htotal := h.total_le
  have htrailers_le := h.trailers_le
  rw [ChunkedBody.reads]
  omega

/-- A body up to the close of its connection: a read takes a byte of it at least. -/
theorem untilClose_ends (hfuel : limits.maximumBodyBytes + 1 < total + fuel)
    (htotal : total ≤ limits.maximumBodyBytes) :
    (untilClose limits fuel total).Ends
      (fun total' r' => total' ≤ limits.maximumBodyBytes ∧
        r'.reads + total ≤ r.reads + limits.maximumBodyBytes + 1)
      (fun e r' => e.isDelivery = true ∧ r'.reads + total ≤ r.reads + limits.maximumBodyBytes + 1)
      r := by
  induction fuel generalizing total r with
  | zero => omega
  | succ fuel ih =>
      unfold untilClose
      refine Reading.ends_bind.mpr ?_
      have hreads : (r.read (min 8192 (limits.maximumBodyBytes - total + 1))).2.reads =
          r.reads + 1 := rfl
      change Reading.Ends _ _ _ (r.read (min 8192 (limits.maximumBodyBytes - total + 1))).2
      split_ifs with hempty
      · exact ⟨htotal, by omega⟩
      · have hpos := List.length_pos_of_ne_nil hempty
        refine Reading.ends_lift_bind (fun _ hcheck => ?_) (fun e he => ?_)
        · simp only [check_eq_ok, decide_eq_true_eq] at hcheck
          refine (ih (by omega) hcheck).mono ?_ ?_
          · rintro total' r' ⟨hle, hbound⟩
            exact ⟨hle, by omega⟩
          · rintro e r' ⟨he, hbound⟩
            exact ⟨he, by omega⟩
        · rw [(check_eq_error.mp he).2]
          exact ⟨rfl, by omega⟩

/-- How often a stream is read for a body. -/
def bodyReads (limits : ResponseLimits) : ℕ :=
  3 * limits.maximumBodyBytes + limits.maximumHeaderBytes + 2

theorem discardChunked_ends : (discardChunked limits).Ends
    (fun total' r' => total' ≤ limits.maximumBodyBytes ∧ r'.reads ≤ r.reads + bodyReads limits)
    (fun e r' => e.isDelivery = true ∧ r'.reads ≤ r.reads + bodyReads limits) r := by
  unfold bodyReads
  refine Reading.ends_iff.mpr ⟨?_, ?_⟩
  · intro total' r' h
    obtain ⟨body, htakes⟩ := (chunks_eq_ok (by omega)).mp h
    have hle := htakes.within.total_le
    have hreads := htakes.within.reads_le htakes.isChunked
    have hsum := htakes.sum
    rw [htakes.after, reads_skip]
    exact ⟨by omega, by omega⟩
  · intro e r' h
    obtain ⟨he, hreads⟩ := chunks_eq_error (by omega) (Nat.zero_le _) h
    exact ⟨he, by omega⟩

theorem readexactly_ends {size : ℕ} : (readexactly size).Ends (fun _ r' => r'.reads = r.reads + 1)
    (fun e r' => e = incompleteResponse ∧ r'.reads = r.reads + 1) r := by
  refine Reading.ends_iff.mpr ⟨fun bytes r' h => ?_, fun e r' h => readexactly_eq_error h⟩
  rw [(readexactly_eq_ok.mp h).2.2, reads_skip]

variable [Digits]

/-- A body of a given length takes one read. -/
theorem discardLength_ends {digits : Str} : (discardLength limits digits).Ends
    (fun length r' => length ≤ limits.maximumBodyBytes ∧ r'.reads ≤ r.reads + 1)
    (fun e r' => (e.isDelivery = true ∨
      e = .value ∧ digits.isdigit = true ∧ digits.intOfDigits? = none) ∧ r'.reads ≤ r.reads + 1) r := by
  unfold discardLength
  refine Reading.ends_lift_bind (fun _ hdigit => ?_) (fun e he => ?_)
  · refine Reading.ends_lift_bind (fun length _ => ?_) (fun e he => ?_)
    · refine Reading.ends_lift_bind (fun _ hcheck => ?_) (fun e he => ?_)
      · refine Reading.ends_bind.mpr (readexactly_ends.mono ?_ ?_)
        · intro bytes r' hreads
          exact ⟨by simpa using hcheck, hreads.le⟩
        · rintro e r' ⟨rfl, hreads⟩
          exact ⟨.inl rfl, hreads.le⟩
      · rw [(check_eq_error.mp he).2]
        exact ⟨.inl rfl, Nat.le_succ _⟩
    · obtain ⟨hnone, rfl⟩ := orRaise_eq_error.mp he
      exact ⟨.inr ⟨rfl, check_eq_ok.mp hdigit, hnone⟩, Nat.le_succ _⟩
  · rw [(check_eq_error.mp he).2]
    exact ⟨.inl rfl, Nat.le_succ _⟩

variable [Platform] {status : ℕ} {headers : Dict Str Str}

/-- A response that says the length of its body, in digits that `int` refuses. -/
structure RefusesLength (status : ℕ) (headers : Dict Str Str) : Prop where
  hasBody : ¬ ((100 ≤ status ∧ status < 200) ∨ status = 204 ∨ status = 304)
  unchunked : headers.get "transfer-encoding" = none
  contentLength : ∃ digits, headers.get "content-length" = some digits ∧ digits.isdigit = true ∧
    (maxStrDigits < digits.length ∨ ∃ c ∈ digits, Digits.decimal c = none)

theorem discardBody_ends : (discardBody limits status headers).Ends
    (fun discarded r' => discarded ≤ limits.maximumBodyBytes ∧ r'.reads ≤ r.reads + bodyReads limits)
    (fun e r' => (e.isDelivery = true ∨ e = .value ∧ RefusesLength status headers) ∧
      r'.reads ≤ r.reads + bodyReads limits) r := by
  have hpos : 2 ≤ bodyReads limits := Nat.le_add_left _ _
  unfold discardBody
  split_ifs with hempty
  · exact ⟨Nat.zero_le _, Nat.le_add_right _ _⟩
  · cases htransfer : headers.get "transfer-encoding" with
    | some transfer =>
        dsimp only
        split_ifs
        · exact ⟨.inl rfl, Nat.le_add_right _ _⟩
        · exact discardChunked_ends.mono (fun _ _ h => h) fun e r' h => ⟨.inl h.1, h.2⟩
    | none =>
        cases hlength : headers.get "content-length" with
        | some digits =>
            refine discardLength_ends.mono ?_ ?_
            · rintro length r' ⟨hle, hreads⟩
              exact ⟨hle, by omega⟩
            · rintro e r' ⟨he | ⟨he, hdigit, hnone⟩, hreads⟩
              · exact ⟨.inl he, by omega⟩
              · have hrefused := Str.intOfDigits?_eq_none.mp hnone
                exact ⟨.inr ⟨he, hempty, htransfer, digits, hlength, hdigit, hrefused⟩, by omega⟩
        | none =>
            refine (untilClose_ends (by omega) (Nat.zero_le _)).mono ?_ ?_
            · rintro total r' ⟨hle, hreads⟩
              unfold bodyReads
              exact ⟨hle, by omega⟩
            · rintro e r' ⟨he, hreads⟩
              unfold bodyReads
              exact ⟨.inl he, by omega⟩

theorem discardBody_of_refuses (h : RefusesLength status headers) :
    discardBody limits status headers r = (.error .value, r) := by
  obtain ⟨digits, hdigits, hisdigit, hrefused⟩ := h.contentLength
  have hnone := Str.intOfDigits?_eq_none.mpr hrefused
  unfold discardBody
  rw [if_neg h.hasBody, h.unchunked, hdigits]
  refine Reading.lift_bind_eq_error.mpr (.inr ⟨(), check_eq_ok.mpr hisdigit, ?_⟩)
  exact Reading.lift_bind_eq_error.mpr (.inl ⟨orRaise_eq_error.mpr ⟨hnone, rfl⟩, rfl⟩)

end Body

/-! ## The response -/

section Response

variable [Platform] [Digits]

/-- A response is read as its heads and its body. -/
theorem parseResponse_eq_ok {limits : ResponseLimits} {r r' : StreamReader}
    {metadata : HttpResponseMetadata} (h : parseResponse limits r = (.ok metadata, r')) :
    ∃ before final headers r₁, Heads limits limits.maximumHeaderBytes 0 0 r before final
        metadata.statusCode headers r₁ ∧ metadata.headers = headers.items ∧
      discardBody limits metadata.statusCode headers r₁ = (.ok metadata.discardedBodyBytes, r') := by
  unfold parseResponse at h
  obtain ⟨⟨status, headers⟩, r₁, hheads, h⟩ := Reading.bind_eq_ok.mp h
  obtain ⟨discarded, r₂, hbody, h⟩ := Reading.bind_eq_ok.mp h
  obtain ⟨rfl, rfl⟩ := Reading.ret_eq_ok.mp h
  obtain ⟨before, final, hheads⟩ :=
    (responses_eq_ok le_rfl (Nat.zero_le _) (Nat.zero_le _)).mp hheads
  exact ⟨before, final, headers, r₁, hheads, rfl, hbody⟩

theorem parseResponse_eq_error {limits : ResponseLimits} {r r' : StreamReader} {e : PyError}
    (h : parseResponse limits r = (.error e, r')) :
    (e.isDelivery = true ∧ r'.reads ≤ r.reads + limits.maximumHeaderBytes + 1) ∨
      ∃ before final status headers r₁, Heads limits limits.maximumHeaderBytes 0 0 r before final
        status headers r₁ ∧ discardBody limits status headers r₁ = (.error e, r') := by
  unfold parseResponse at h
  rcases Reading.bind_eq_error.mp h with h | ⟨⟨status, headers⟩, r₁, hheads, h⟩
  · exact .inl (responses_eq_error le_rfl (Nat.zero_le _) h)
  rcases Reading.bind_eq_error.mp h with h | ⟨discarded, r₂, -, h⟩
  · obtain ⟨before, final, hheads⟩ :=
      (responses_eq_ok le_rfl (Nat.zero_le _) (Nat.zero_le _)).mp hheads
    exact .inr ⟨before, final, status, headers, r₁, hheads, h⟩
  · cases h

/-- Reading a response raises delivery errors alone, unless the stream starts with heads of which
the last says a length that `int` refuses. -/
theorem parseResponse_closed (limits : ResponseLimits) (r : StreamReader) :
    (∀ e r', parseResponse limits r = (.error e, r') → e.isDelivery = true) ↔
      ¬ ∃ before final status headers r₁, Heads limits limits.maximumHeaderBytes 0 0 r before final
        status headers r₁ ∧ RefusesLength status headers := by
  constructor
  · rintro hclosed ⟨before, final, status, headers, r₁, hheads, hrefuses⟩
    have hread := (responses_eq_ok le_rfl (Nat.zero_le _) (Nat.zero_le _)).mpr ⟨before, final, hheads⟩
    have hbody : discardBody limits status headers r₁ = (.error .value, r₁) :=
      discardBody_of_refuses hrefuses
    have hraised : parseResponse limits r = (.error .value, r₁) := by
      unfold parseResponse
      refine Reading.bind_eq_error.mpr (.inr ⟨(status, headers), r₁, hread, ?_⟩)
      exact Reading.bind_eq_error.mpr (.inl hbody)
    have hdelivery := hclosed _ _ hraised
    cases hdelivery
  · intro hnone e r' h
    rcases parseResponse_eq_error h with ⟨he, -⟩ | ⟨before, final, status, headers, r₁, hheads, h⟩
    · exact he
    · obtain ⟨he | ⟨-, hrefuses⟩, -⟩ := discardBody_ends.of_error h
      · exact he
      · exact absurd ⟨before, final, status, headers, r₁, hheads, hrefuses⟩ hnone

/-- What is read of a response is within the limits, whatever the stream holds, and so is how
often the stream is read. -/
theorem parseResponse_within (limits : ResponseLimits) (r : StreamReader) :
    (∀ metadata r', parseResponse limits r = (.ok metadata, r') →
      ∃ before final headers rest,
        (∀ head ∈ before, head.IsInformational r.limit) ∧
        final.Has r.limit metadata.statusCode headers ∧
        r.rest = bytesOf (before ++ [final]) ++ rest ∧
        (bytesOf (before ++ [final])).length ≤ limits.maximumHeaderBytes ∧
        fieldsOf (before ++ [final]) ≤ limits.maximumHeaderCount ∧
        before.length ≤ limits.maximumInformationalResponses ∧
        ¬ (100 ≤ metadata.statusCode ∧ metadata.statusCode < 200) ∧
        metadata.discardedBodyBytes ≤ limits.maximumBodyBytes) ∧
    (parseResponse limits r).2.reads ≤
      r.reads + (3 * limits.maximumBodyBytes + 2 * limits.maximumHeaderBytes + 2) := by
  constructor
  · intro metadata r' h
    obtain ⟨before, final, headers, r₁, hheads, -, hbody⟩ := parseResponse_eq_ok h
    have hfields := hheads.fields_le
    have hinformational := hheads.informational_le
    rw [Nat.zero_add] at hfields hinformational
    exact ⟨before, final, headers, r₁.rest, hheads.isInformational, hheads.has, hheads.taken,
      hheads.bytes_le, hfields, hinformational, hheads.isFinal, (discardBody_ends.of_ok hbody).1⟩
  · have hbody : bodyReads limits = 3 * limits.maximumBodyBytes + limits.maximumHeaderBytes + 2 := rfl
    rcases h : parseResponse limits r with ⟨metadata | e, r'⟩
    · rcases parseResponse_eq_error h with ⟨-, hreads⟩ | ⟨_, _, _, _, r₁, hheads, h⟩
      · change r'.reads ≤ _
        have hpos := limits.body_pos
        omega
      · have hheads := hheads.reads
        have hreads := (discardBody_ends.of_error h).2
        change r'.reads ≤ _
        omega
    · obtain ⟨_, _, _, r₁, hheads, -, h⟩ := parseResponse_eq_ok h
      have hheads := hheads.reads
      have hreads := (discardBody_ends.of_ok h).2
      change r'.reads ≤ _
      omega

end Response

/-! ### A length of a superscript two -/

namespace Superscript

open scoped Digits Checksum

theorem limit_pos : 0 < 65536 := by decide

def stream : StreamReader where
  rest := ascii "HTTP/1.1 200 OK\r\nContent-Length: ²\r\n\r\n"
  limit := 65536
  arrived := fun _ => 0
  reads := 0
  limit_pos := limit_pos

/-- The `ValueError` of `int` escapes. -/
theorem parseResponse_value :
    ¬ ∀ e r', parseResponse {} stream = (.error e, r') → e.isDelivery = true := by
  intro hclosed
  have hraised : parseResponse {} stream = (.error .value, stream.skip 38 3) := rfl
  exact absurd (hclosed _ _ hraised) (by decide)

end Superscript

end FastapiEffects
