import FastapiEffects.Webhooks.Http11

/-! # The heads of responses

What `parse_response` takes off a stream before the body: the heads of the informational
responses and of the final one, line by line. It takes exactly the heads that are within its
limits, and every other stream ends in a delivery error.
-/

namespace FastapiEffects

open Python StreamReader

/-! ## A line and some bytes -/

theorem isSuffixOf_crlf {line : Bytes} : crlfBytes.isSuffixOf line = true ↔ [13, 10] <:+ line :=
  List.isSuffixOf_iff_suffix

/-- What is read as a line. -/
theorem readline_eq_ok {budget : ℕ} {r r' : StreamReader} {line : Bytes} :
    readline budget r = (.ok line, r') ↔ IsLine r.limit line ∧ line.length ≤ budget ∧
      r.rest = line ++ r'.rest ∧ r' = r.skip line.length 1 := by
  constructor
  · intro h
    unfold readline at h
    split_ifs at h with hbudget
    · cases h
    · split at h
      · cases h
      · rename_i line' r₁ hread
        split_ifs at h with hbad
        · cases h
        · simp only [not_or, not_lt, not_not] at hbad
          cases h
          obtain ⟨-, hle, hends⟩ := hbad
          obtain ⟨hline, hrest, hadvance⟩ := isLine_of_readline hread (isSuffixOf_crlf.mp hends)
          exact ⟨hline, hle, hrest, hadvance⟩
  · rintro ⟨hline, hle, hrest, hskip⟩
    have htwo := hline.two_le
    have hread := readline_of_isLine hline hrest
    obtain ⟨text, htext, -⟩ := hline.split
    have hends : crlfBytes.isSuffixOf line = true := isSuffixOf_crlf.mpr ⟨text, htext.symm⟩
    have hne : line ≠ [] := List.ne_nil_of_length_pos (by omega)
    unfold readline
    rw [if_neg (by omega), hread, hskip]
    dsimp only
    rw [if_neg]
    · rfl
    · simp only [not_or, not_lt, not_not]
      exact ⟨hne, hle, hends⟩

theorem readline_eq_error {budget : ℕ} {r r' : StreamReader} {e : PyError}
    (h : readline budget r = (.error e, r')) : e = oversized ∧ r'.reads ≤ r.reads + 1 := by
  have hreads : (r.readline).2.reads = r.reads + 1 := rfl
  unfold readline at h
  split_ifs at h with hbudget
  · cases h
    exact ⟨rfl, Nat.le_succ _⟩
  · split at h
    · rename_i r₁ hread
      rw [hread] at hreads
      cases h
      exact ⟨rfl, hreads.le⟩
    · rename_i line r₁ hread
      rw [hread] at hreads
      split_ifs at h
      · cases h
        exact ⟨rfl, hreads.le⟩
      · cases h

theorem readexactly_eq_ok {size : ℕ} {r r' : StreamReader} {bytes : Bytes} :
    readexactly size r = (.ok bytes, r') ↔
      bytes.length = size ∧ r.rest = bytes ++ r'.rest ∧ r' = r.skip size 1 := by
  unfold readexactly StreamReader.readexactly
  by_cases hsize : size ≤ r.rest.length
  · rw [if_pos hsize]
    simp only [Prod.mk.injEq, Except.ok.injEq]
    constructor
    · rintro ⟨hbytes, hskip⟩
      subst hbytes hskip
      exact ⟨List.length_take_of_le hsize, (List.take_append_drop size r.rest).symm, rfl⟩
    · rintro ⟨hlength, hrest, hskip⟩
      refine ⟨?_, hskip.symm⟩
      rw [hrest, List.take_left' hlength]
  · rw [if_neg hsize]
    simp only [Prod.mk.injEq, reduceCtorEq, false_and, false_iff]
    rintro ⟨hlength, hrest, -⟩
    apply hsize
    rw [hrest, List.length_append, hlength]
    exact Nat.le_add_right _ _

theorem readexactly_eq_error {size : ℕ} {r r' : StreamReader} {e : PyError}
    (h : readexactly size r = (.error e, r')) : e = incompleteResponse ∧ r'.reads = r.reads + 1 := by
  unfold readexactly StreamReader.readexactly at h
  by_cases hsize : size ≤ r.rest.length
  · rw [if_pos hsize] at h
    cases h
  · rw [if_neg hsize] at h
    cases h
    exact ⟨rfl, rfl⟩

/-! ## Header lines -/

/-- A header line that does not continue the one before it. -/
structure IsField (limit : ℕ) (line : Bytes) : Prop where
  isLine : IsLine limit line
  nonempty : line ≠ crlfBytes
  unfolded : line.head? ≠ some 32 ∧ line.head? ≠ some 9

theorem addHeader_eq_error {headers : Dict Str Str} {key value : Str} {e : PyError}
    (h : addHeader headers key value = .error e) : e = malformed := by
  unfold addHeader at h
  split at h
  · split_ifs at h
    · exact (Except.error.inj h).symm
  · cases h

/-- The headers with those of some lines. -/
def addFields (headers : Dict Str Str) : List Bytes → Except PyError (Dict Str Str)
  | [] => .ok headers
  | line :: fields => do
      let (key, value) ← orRaise (headerOf? line) malformed
      addFields (← addHeader headers key value) fields

theorem addFields_cons {headers headers' : Dict Str Str} {line : Bytes} {fields : List Bytes} :
    addFields headers (line :: fields) = .ok headers' ↔ ∃ key value with',
      headerOf? line = some (key, value) ∧ addHeader headers key value = .ok with' ∧
        addFields with' fields = .ok headers' := by
  constructor
  · intro h
    rw [addFields] at h
    obtain ⟨⟨key, value⟩, hheader, h⟩ := bind_eq_ok.mp h
    obtain ⟨with', hadd, h⟩ := bind_eq_ok.mp h
    exact ⟨key, value, with', orRaise_eq_ok.mp hheader, hadd, h⟩
  · rintro ⟨key, value, with', hheader, hadd, h⟩
    rw [addFields, hheader]
    exact bind_eq_ok.mpr ⟨_, rfl, bind_eq_ok.mpr ⟨with', hadd, h⟩⟩

/-- The empty line that ends a head. -/
theorem isLine_crlf (r : StreamReader) : IsLine r.limit crlfBytes :=
  ⟨⟨[], rfl, by simp⟩, Nat.succ_le_succ r.limit_pos⟩

/-- The bytes of some lines and the empty line after them. -/
def ended (lines : List Bytes) : Bytes := lines.flatten ++ crlfBytes

@[simp] theorem ended_nil : ended [] = crlfBytes := rfl

@[simp] theorem ended_cons (line : Bytes) (lines : List Bytes) :
    ended (line :: lines) = line ++ ended lines := by
  simp [ended]

section Lines

variable {limits : ResponseLimits} {fuel budget budget' count count' : ℕ}
  {headers headers' : Dict Str Str} {r r' : StreamReader}

/-- The lines of a head that are read: as many as there are before the empty line. -/
structure HeaderLines (limits : ResponseLimits) (budget count : ℕ) (headers : Dict Str Str)
    (r : StreamReader) (fields : List Bytes) (budget' count' : ℕ) (headers' : Dict Str Str)
    (r' : StreamReader) : Prop where
  isField : ∀ line ∈ fields, IsField r.limit line
  adds : addFields headers fields = .ok headers'
  left : (ended fields).length + budget' = budget
  counted : count' = count + fields.length
  count_le : count' ≤ limits.maximumHeaderCount
  taken : r.rest = ended fields ++ r'.rest
  after : r' = r.skip (ended fields).length (fields.length + 1)

theorem HeaderLines.nil {budget' : ℕ} (hbudget : crlfBytes.length + budget' = budget)
    (hcount : count ≤ limits.maximumHeaderCount) (hrest : r.rest = crlfBytes ++ r'.rest)
    (hskip : r' = r.skip crlfBytes.length 1) :
    HeaderLines limits budget count headers r [] budget' count headers r' :=
  ⟨by simp, rfl, hbudget, rfl, hcount, hrest, hskip⟩

/-- A line is one read and two bytes at least. -/
theorem length_le_ended {limit : ℕ} {lines : List Bytes} (h : ∀ line ∈ lines, IsLine limit line) :
    lines.length + 1 ≤ (ended lines).length := by
  induction lines with
  | nil => exact Nat.le_succ 1
  | cons line lines ih =>
      have htwo := (h line List.mem_cons_self).two_le
      have hle := ih fun line' hmem => h line' (List.mem_cons_of_mem _ hmem)
      rw [ended_cons, List.length_append, List.length_cons]
      omega

theorem HeaderLines.reads {fields : List Bytes}
    (h : HeaderLines limits budget count headers r fields budget' count' headers' r') :
    r'.reads + budget' ≤ r.reads + budget := by
  have hle := length_le_ended fun line hmem => (h.isField line hmem).isLine
  have hleft := h.left
  rw [h.after, reads_skip]
  omega

theorem headerLines_eq_ok (hfuel : budget ≤ fuel) (hcount : count ≤ limits.maximumHeaderCount) :
    headerLines limits fuel budget count headers r = (.ok (budget', count', headers'), r') ↔
      ∃ fields, HeaderLines limits budget count headers r fields budget' count' headers' r' := by
  induction fuel generalizing budget count headers r with
  | zero =>
      constructor
      · intro h
        cases h
      · rintro ⟨fields, h⟩
        have hbudget := h.left
        have hlength : 2 ≤ (ended fields).length := by simp [ended, crlfBytes]
        omega
  | succ fuel ih =>
      unfold headerLines
      simp only [Reading.bind_eq, Reading.bind_eq_ok, readline_eq_ok]
      constructor
      · rintro ⟨line, r₁, ⟨hline, hle, hrest, hskip⟩, h⟩
        by_cases hcrlf : line = crlfBytes
        · subst hcrlf
          rw [if_pos rfl] at h
          cases h
          exact ⟨[], .nil (by omega) hcount hrest hskip⟩
        · rw [if_neg hcrlf] at h
          obtain ⟨_, hcheck, h⟩ := Reading.lift_bind_eq_ok.mp h
          obtain ⟨⟨key, value⟩, hheader, h⟩ := Reading.lift_bind_eq_ok.mp h
          obtain ⟨with', hadd, h⟩ := Reading.lift_bind_eq_ok.mp h
          simp only [check_eq_ok, decide_eq_true_eq] at hcheck
          obtain ⟨hcount₁, hunfolded⟩ := hcheck
          have htwo := hline.two_le
          obtain ⟨fields, hlines⟩ := (ih (by omega) hcount₁).mp h
          have hbudget := hlines.left
          refine ⟨line :: fields, ⟨?_, ?_, ?_, ?_, hlines.count_le, ?_, ?_⟩⟩
          · intro field hfield
            rcases List.mem_cons.mp hfield with rfl | hfield
            · exact ⟨hline, hcrlf, hunfolded⟩
            · have hfield := hlines.isField field hfield
              rwa [hskip, limit_skip] at hfield
          · exact addFields_cons.mpr ⟨key, value, with', orRaise_eq_ok.mp hheader, hadd, hlines.adds⟩
          · rw [ended_cons, List.length_append]
            omega
          · rw [hlines.counted, List.length_cons]
            omega
          · rw [hrest, hlines.taken, ended_cons, List.append_assoc]
          · rw [hlines.after, hskip, skip_skip, ended_cons, List.length_append, List.length_cons,
              Nat.add_comm 1]
      · rintro ⟨fields, hlines⟩
        cases fields with
        | nil =>
            have hbudget := hlines.left
            rw [ended_nil] at hbudget
            refine ⟨crlfBytes, r', ⟨isLine_crlf r, by omega, hlines.taken, hlines.after⟩, ?_⟩
            have hheaders : headers' = headers := (Except.ok.inj hlines.adds).symm
            have hcount' : count' = count := hlines.counted
            rw [if_pos rfl, hheaders, hcount']
            simp only [Reading.pure_eq, Reading.ret_eq_ok, Prod.mk.injEq, and_true]
            omega
        | cons line fields =>
            have hfield := hlines.isField line List.mem_cons_self
            have htwo := hfield.isLine.two_le
            have hbudget := hlines.left
            rw [ended_cons, List.length_append] at hbudget
            have hcount' := hlines.counted
            rw [List.length_cons] at hcount'
            have hcount_le := hlines.count_le
            have hrest := hlines.taken
            rw [ended_cons, List.append_assoc] at hrest
            obtain ⟨key, value, with', hheader, hadd, hheaders⟩ := addFields_cons.mp hlines.adds
            refine ⟨line, r.skip line.length 1, ⟨hfield.isLine, by omega, ?_, rfl⟩, ?_⟩
            · rw [rest_skip, hrest, List.drop_left]
            rw [if_neg hfield.nonempty]
            refine Reading.lift_bind_eq_ok.mpr ⟨(), ?_, Reading.lift_bind_eq_ok.mpr ⟨(key, value),
              orRaise_eq_ok.mpr hheader, Reading.lift_bind_eq_ok.mpr ⟨with', hadd, ?_⟩⟩⟩
            · rw [check_eq_ok, decide_eq_true_eq]
              exact ⟨by omega, hfield.unfolded⟩
            refine (ih (by omega) (by omega)).mpr ⟨fields, ⟨?_, hheaders, by omega, by omega,
              hcount_le, ?_, ?_⟩⟩
            · intro field hmem
              exact hlines.isField field (List.mem_cons_of_mem _ hmem)
            · rw [rest_skip, hrest, List.drop_left]
            · rw [hlines.after, skip_skip, ended_cons, List.length_append, List.length_cons,
                Nat.add_comm 1]

/-- Whatever the headers are refused for is a delivery error, and a read takes two bytes. -/
theorem headerLines_eq_error {e : PyError} (hfuel : budget ≤ fuel)
    (h : headerLines limits fuel budget count headers r = (.error e, r')) :
    e.isDelivery = true ∧ r'.reads ≤ r.reads + budget + 1 := by
  induction fuel generalizing budget count headers r with
  | zero =>
      cases h
      exact ⟨rfl, by omega⟩
  | succ fuel ih =>
      unfold headerLines at h
      rcases Reading.bind_eq_error.mp h with h | ⟨line, r₁, hread, h⟩
      · obtain ⟨rfl, hreads⟩ := readline_eq_error h
        exact ⟨rfl, by omega⟩
      obtain ⟨hline, hle, -, hskip⟩ := readline_eq_ok.mp hread
      have htwo := hline.two_le
      have hreads : r₁.reads = r.reads + 1 := by rw [hskip, reads_skip]
      by_cases hcrlf : line = crlfBytes
      · rw [if_pos hcrlf] at h
        cases h
      rw [if_neg hcrlf] at h
      rcases Reading.lift_bind_eq_error.mp h with ⟨he, rfl⟩ | ⟨_, -, h⟩
      · rw [(check_eq_error.mp he).2]
        exact ⟨rfl, by omega⟩
      rcases Reading.lift_bind_eq_error.mp h with ⟨he, rfl⟩ | ⟨⟨key, value⟩, -, h⟩
      · rw [(orRaise_eq_error.mp he).2]
        exact ⟨rfl, by omega⟩
      rcases Reading.lift_bind_eq_error.mp h with ⟨he, rfl⟩ | ⟨with', -, h⟩
      · rw [addHeader_eq_error he]
        exact ⟨rfl, by omega⟩
      obtain ⟨he, hle'⟩ := ih (by omega) h
      exact ⟨he, by omega⟩

end Lines

/-! ## Heads -/

/-- The lines of a head, without the empty one. -/
structure ResponseHead where
  statusLine : Bytes
  fields : List Bytes

namespace ResponseHead

def bytes (head : ResponseHead) : Bytes := head.statusLine ++ ended head.fields

/-- A head with that status and those headers. -/
structure Has (limit : ℕ) (head : ResponseHead) (status : ℕ) (headers : Dict Str Str) : Prop where
  isLine : IsLine limit head.statusLine
  isStatus : statusOf? head.statusLine = some status
  isField : ∀ line ∈ head.fields, IsField limit line
  adds : addFields .empty head.fields = .ok headers

/-- A head that another one follows; an upgrade is refused. -/
def IsInformational (limit : ℕ) (head : ResponseHead) : Prop :=
  ∃ status headers, head.Has limit status headers ∧ 100 ≤ status ∧ status < 200 ∧ status ≠ 101

end ResponseHead

/-- The bytes of some heads. -/
def bytesOf (heads : List ResponseHead) : Bytes := heads.flatMap ResponseHead.bytes

/-- How many headers some heads have. -/
def fieldsOf (heads : List ResponseHead) : ℕ := (heads.map fun head => head.fields.length).sum

/-- How many lines some heads have. -/
def linesOf (heads : List ResponseHead) : ℕ := (heads.map fun head => head.fields.length + 2).sum

@[simp] theorem bytesOf_cons (head : ResponseHead) (heads : List ResponseHead) :
    bytesOf (head :: heads) = head.bytes ++ bytesOf heads := rfl

@[simp] theorem fieldsOf_cons (head : ResponseHead) (heads : List ResponseHead) :
    fieldsOf (head :: heads) = head.fields.length + fieldsOf heads := by
  simp [fieldsOf]

@[simp] theorem linesOf_cons (head : ResponseHead) (heads : List ResponseHead) :
    linesOf (head :: heads) = head.fields.length + 2 + linesOf heads := by
  simp [linesOf]

@[simp] theorem bytesOf_nil : bytesOf [] = [] := rfl

@[simp] theorem fieldsOf_nil : fieldsOf [] = 0 := rfl

@[simp] theorem linesOf_nil : linesOf [] = 0 := rfl

/-- The heads of a response: those of the informational ones, and its own. -/
structure Heads (limits : ResponseLimits) (budget count informational : ℕ) (r : StreamReader)
    (before : List ResponseHead) (final : ResponseHead) (status : ℕ) (headers : Dict Str Str)
    (r' : StreamReader) : Prop where
  isInformational : ∀ head ∈ before, head.IsInformational r.limit
  has : final.Has r.limit status headers
  isFinal : ¬ (100 ≤ status ∧ status < 200)
  bytes_le : (bytesOf (before ++ [final])).length ≤ budget
  fields_le : count + fieldsOf (before ++ [final]) ≤ limits.maximumHeaderCount
  informational_le : informational + before.length ≤ limits.maximumInformationalResponses
  taken : r.rest = bytesOf (before ++ [final]) ++ r'.rest
  after : r' = r.skip (bytesOf (before ++ [final])).length (linesOf (before ++ [final]))

section Responses

variable {limits : ResponseLimits} {fuel budget count informational status : ℕ}
  {headers : Dict Str Str} {r r' : StreamReader}

theorem Heads.reads {before : List ResponseHead} {final : ResponseHead}
    (h : Heads limits budget count informational r before final status headers r') :
    r'.reads ≤ r.reads + budget := by
  have hle : linesOf (before ++ [final]) ≤ (bytesOf (before ++ [final])).length := by
    have hhead : ∀ head ∈ before ++ [final], head.fields.length + 2 ≤ head.bytes.length := by
      intro head hmem
      have hhas : ∃ status headers, head.Has r.limit status headers := by
        rcases List.mem_append.mp hmem with hmem | hmem
        · obtain ⟨status₁, headers₁, hhas, -⟩ := h.isInformational head hmem
          exact ⟨status₁, headers₁, hhas⟩
        · rw [List.mem_singleton.mp hmem]
          exact ⟨status, headers, h.has⟩
      obtain ⟨_, _, hhas⟩ := hhas
      have htwo := hhas.isLine.two_le
      have hfields := length_le_ended fun line hmem => (hhas.isField line hmem).isLine
      rw [ResponseHead.bytes, List.length_append]
      omega
    rw [linesOf, bytesOf, List.length_flatMap]
    exact List.sum_le_sum hhead
  have hbytes := h.bytes_le
  rw [h.after, reads_skip]
  omega

/-- A head that was read, of any status. -/
theorem head_of_ok {statusLine : Bytes} {fields : List Bytes} {left budget' count' : ℕ}
    {r₁ : StreamReader} (hread : readline budget r = (.ok statusLine, r₁))
    (hlines : HeaderLines limits left count .empty r₁ fields budget' count' headers r')
    (hstatus : statusOf? statusLine = some status) :
    (⟨statusLine, fields⟩ : ResponseHead).Has r.limit status headers ∧
      r.rest = (⟨statusLine, fields⟩ : ResponseHead).bytes ++ r'.rest ∧
      r' = r.skip (⟨statusLine, fields⟩ : ResponseHead).bytes.length (fields.length + 2) := by
  obtain ⟨hline, -, hrest, hskip⟩ := readline_eq_ok.mp hread
  have htaken := hlines.taken
  have hafter := hlines.after
  refine ⟨⟨hline, hstatus, ?_, hlines.adds⟩, ?_, ?_⟩
  · have hfields := hlines.isField
    rw [hskip, limit_skip] at hfields
    exact hfields
  · rw [hrest, htaken, ResponseHead.bytes, List.append_assoc]
  · rw [hafter, hskip, skip_skip, ResponseHead.bytes, List.length_append]
    congr 1
    omega

/-- A head at the front of the stream is read. -/
theorem ok_of_head {head : ResponseHead} {rest : Bytes} (hhas : head.Has r.limit status headers)
    (hrest : r.rest = head.bytes ++ rest) (hbytes : head.bytes.length ≤ budget)
    (hcount : count + head.fields.length ≤ limits.maximumHeaderCount) :
    readline budget r = (.ok head.statusLine, r.skip head.statusLine.length 1) ∧
      headerLines limits (budget - head.statusLine.length) (budget - head.statusLine.length) count
          .empty (r.skip head.statusLine.length 1) =
        (.ok (budget - head.bytes.length, count + head.fields.length, headers),
          r.skip head.bytes.length (head.fields.length + 2)) := by
  have hlength : head.bytes.length = head.statusLine.length + (ended head.fields).length :=
    List.length_append
  have hsplit : r.rest = head.statusLine ++ (ended head.fields ++ rest) := by
    rw [hrest, ResponseHead.bytes, List.append_assoc]
  constructor
  · refine readline_eq_ok.mpr ⟨hhas.isLine, by omega, ?_, rfl⟩
    rw [rest_skip, hsplit, List.drop_left]
  · refine (headerLines_eq_ok le_rfl (by omega)).mpr ⟨head.fields, ⟨hhas.isField, hhas.adds, by omega,
      rfl, hcount, ?_, ?_⟩⟩
    · rw [rest_skip, rest_skip, hlength, ← List.drop_drop, hsplit, List.drop_left, List.drop_left]
    · rw [skip_skip, hlength, Nat.add_comm 1]

theorem responses_eq_ok (hfuel : budget ≤ fuel) (hcount : count ≤ limits.maximumHeaderCount)
    (hinformational : informational ≤ limits.maximumInformationalResponses) :
    responses limits fuel budget count informational r = (.ok (status, headers), r') ↔
      ∃ before final, Heads limits budget count informational r before final status headers r' := by
  induction fuel generalizing budget count informational r with
  | zero =>
      constructor
      · intro h
        cases h
      · rintro ⟨before, final, h⟩
        have hbytes := h.bytes_le
        have hpos := h.has.isLine.two_le
        simp only [bytesOf, List.flatMap_append, List.flatMap_singleton, ResponseHead.bytes,
          List.length_append] at hbytes
        omega
  | succ fuel ih =>
      unfold responses
      constructor
      · intro h
        obtain ⟨statusLine, r₁, hread, h⟩ := Reading.bind_eq_ok.mp h
        obtain ⟨status₁, hstatus, h⟩ := Reading.lift_bind_eq_ok.mp h
        obtain ⟨⟨budget₁, count₁, headers₁⟩, r₂, hheaders, h⟩ := Reading.bind_eq_ok.mp h
        obtain ⟨_, hupgrade, h⟩ := Reading.lift_bind_eq_ok.mp h
        obtain ⟨fields, hlines⟩ := (headerLines_eq_ok le_rfl hcount).mp hheaders
        obtain ⟨hhas, hrest, hskip⟩ := head_of_ok hread hlines (orRaise_eq_ok.mp hstatus)
        obtain ⟨hline, hle, -, -⟩ := readline_eq_ok.mp hread
        have htwo := hline.two_le
        have hleft := hlines.left
        have hcounted := hlines.counted
        have hcount_le := hlines.count_le
        have hbytes : (⟨statusLine, fields⟩ : ResponseHead).bytes.length =
            statusLine.length + (ended fields).length := List.length_append
        simp only [check_eq_ok, decide_eq_true_eq] at hupgrade
        by_cases hinfo : 100 ≤ status₁ ∧ status₁ < 200
        · rw [if_pos hinfo] at h
          obtain ⟨_, hallowed, h⟩ := Reading.lift_bind_eq_ok.mp h
          simp only [check_eq_ok, decide_eq_true_eq] at hallowed
          obtain ⟨before, final, hheads⟩ := (ih (by omega) hcount_le hallowed).mp h
          have hbytes_le := hheads.bytes_le
          have hfields_le := hheads.fields_le
          have hinformational_le := hheads.informational_le
          have hinformationals := hheads.isInformational
          have hfinal := hheads.has
          rw [hskip, limit_skip] at hinformationals hfinal
          refine ⟨⟨statusLine, fields⟩ :: before, final, ⟨?_, hfinal, hheads.isFinal, ?_, ?_, ?_, ?_, ?_⟩⟩
          · intro head hhead
            rcases List.mem_cons.mp hhead with rfl | hhead
            · exact ⟨status₁, headers₁, hhas, hinfo.1, hinfo.2, hupgrade⟩
            · exact hinformationals head hhead
          · rw [List.cons_append, bytesOf_cons, List.length_append, hbytes]
            omega
          · rw [List.cons_append, fieldsOf_cons]
            simp only
            omega
          · rw [List.length_cons]
            omega
          · rw [hrest, hheads.taken, List.cons_append, bytesOf_cons, List.append_assoc]
          · rw [hheads.after, hskip, skip_skip, List.cons_append, bytesOf_cons, linesOf_cons,
              List.length_append]
        · rw [if_neg hinfo] at h
          obtain ⟨heq, rfl⟩ := Reading.ret_eq_ok.mp h
          obtain ⟨rfl, rfl⟩ := Prod.mk.inj heq
          refine ⟨[], ⟨statusLine, fields⟩, ⟨by simp, hhas, hinfo, ?_, ?_, hinformational, ?_, ?_⟩⟩
          · rw [List.nil_append, bytesOf_cons, bytesOf_nil, List.append_nil, hbytes]
            omega
          · rw [List.nil_append, fieldsOf_cons, fieldsOf_nil]
            simp only
            omega
          · rw [List.nil_append, bytesOf_cons, bytesOf_nil, List.append_nil]
            exact hrest
          · rw [List.nil_append, bytesOf_cons, bytesOf_nil, List.append_nil, linesOf_cons, linesOf_nil]
            exact hskip
      · rintro ⟨before, final, hheads⟩
        have hbytes_le := hheads.bytes_le
        have hfields_le := hheads.fields_le
        have htaken := hheads.taken
        have hafter := hheads.after
        have hinformational_le := hheads.informational_le
        cases before with
        | nil =>
            simp only [List.nil_append, bytesOf_cons, bytesOf_nil, List.append_nil, fieldsOf_cons,
              fieldsOf_nil, linesOf_cons, linesOf_nil, Nat.add_zero] at hbytes_le hfields_le htaken hafter
            obtain ⟨hread, hlines⟩ := ok_of_head hheads.has htaken hbytes_le hfields_le
            have hstatus := hheads.has.isStatus
            have hfinal := hheads.isFinal
            refine Reading.bind_eq_ok.mpr ⟨_, _, hread, Reading.lift_bind_eq_ok.mpr ⟨status,
              orRaise_eq_ok.mpr hstatus, Reading.bind_eq_ok.mpr ⟨_, _, hlines,
                Reading.lift_bind_eq_ok.mpr ⟨(), ?_, ?_⟩⟩⟩⟩
            · rw [check_eq_ok, decide_eq_true_eq]
              rintro rfl
              exact hfinal ⟨by omega, by omega⟩
            · rw [if_neg hfinal]
              exact Reading.ret_eq_ok.mpr ⟨rfl, hafter⟩
        | cons head before =>
            simp only [List.cons_append, bytesOf_cons, fieldsOf_cons, linesOf_cons,
              List.length_append, List.append_assoc, List.length_cons]
              at hbytes_le hfields_le htaken hafter hinformational_le
            obtain ⟨status₁, headers₁, hhas, hlow, hhigh, hupgrade⟩ :=
              hheads.isInformational head List.mem_cons_self
            have htwo : 2 ≤ head.bytes.length := by
              rw [ResponseHead.bytes, List.length_append]
              exact hhas.isLine.two_le.trans (Nat.le_add_right _ _)
            obtain ⟨hread, hlines⟩ := ok_of_head hhas htaken
              (show head.bytes.length ≤ budget by omega)
              (show count + head.fields.length ≤ limits.maximumHeaderCount by omega)
            refine Reading.bind_eq_ok.mpr ⟨_, _, hread, Reading.lift_bind_eq_ok.mpr ⟨status₁,
              orRaise_eq_ok.mpr hhas.isStatus, Reading.bind_eq_ok.mpr ⟨_, _, hlines,
                Reading.lift_bind_eq_ok.mpr ⟨(), ?_, ?_⟩⟩⟩⟩
            · rw [check_eq_ok, decide_eq_true_eq]
              exact hupgrade
            rw [if_pos ⟨hlow, hhigh⟩]
            refine Reading.lift_bind_eq_ok.mpr ⟨(), ?_, ?_⟩
            · rw [check_eq_ok, decide_eq_true_eq]
              omega
            refine (ih (by omega) (by omega) (by omega)).mpr ⟨before, final, ⟨?_, hheads.has,
              hheads.isFinal, ?_, ?_, ?_, ?_, ?_⟩⟩
            · intro head' hmem
              exact hheads.isInformational head' (List.mem_cons_of_mem _ hmem)
            · omega
            · omega
            · omega
            · rw [rest_skip, htaken, List.drop_left]
            · rw [hafter, skip_skip]

/-- Whatever the heads are refused for is a delivery error, and a read takes two bytes. -/
theorem responses_eq_error {e : PyError} (hfuel : budget ≤ fuel)
    (hcount : count ≤ limits.maximumHeaderCount)
    (h : responses limits fuel budget count informational r = (.error e, r')) :
    e.isDelivery = true ∧ r'.reads ≤ r.reads + budget + 1 := by
  induction fuel generalizing budget count informational r with
  | zero =>
      cases h
      exact ⟨rfl, by omega⟩
  | succ fuel ih =>
      unfold responses at h
      rcases Reading.bind_eq_error.mp h with h | ⟨statusLine, r₁, hread, h⟩
      · obtain ⟨rfl, hreads⟩ := readline_eq_error h
        exact ⟨rfl, by omega⟩
      obtain ⟨hline, hle, -, hskip⟩ := readline_eq_ok.mp hread
      have htwo := hline.two_le
      have hreads : r₁.reads = r.reads + 1 := by rw [hskip, reads_skip]
      rcases Reading.lift_bind_eq_error.mp h with ⟨he, rfl⟩ | ⟨status, -, h⟩
      · rw [(orRaise_eq_error.mp he).2]
        exact ⟨rfl, by omega⟩
      rcases Reading.bind_eq_error.mp h with h | ⟨⟨budget₁, count₁, headers⟩, r₂, hheaders, h⟩
      · obtain ⟨he, hle'⟩ := headerLines_eq_error le_rfl h
        exact ⟨he, by omega⟩
      obtain ⟨fields, hlines⟩ := (headerLines_eq_ok le_rfl hcount).mp hheaders
      have hreads₂ := hlines.reads
      have hleft := hlines.left
      rcases Reading.lift_bind_eq_error.mp h with ⟨he, rfl⟩ | ⟨_, -, h⟩
      · rw [(check_eq_error.mp he).2]
        exact ⟨rfl, by omega⟩
      split_ifs at h with hinfo
      · rcases Reading.lift_bind_eq_error.mp h with ⟨he, rfl⟩ | ⟨_, -, h⟩
        · rw [(check_eq_error.mp he).2]
          exact ⟨rfl, by omega⟩
        obtain ⟨he, hle'⟩ := ih (by omega) hlines.count_le h
        exact ⟨he, by omega⟩
      · cases h

end Responses

end FastapiEffects
