import FastapiEffects.Webhooks.Heads

/-! # Chunked bodies

The grammar of a chunked body, and that `_discard_chunked` takes exactly the bodies within its
limits whose sizes `int(raw_size, 16)` reads. Those are more than the bodies of the grammar:
the sizes of a grammar's body are plain hexadecimal digits.
-/

namespace FastapiEffects

open Python StreamReader

structure Chunk where
  sizeLine : Bytes
  data : Bytes

def Chunk.bytes (chunk : Chunk) : Bytes := chunk.sizeLine ++ (chunk.data ++ crlfBytes)

/-- Some chunks, the size line of value zero, and the trailers before the empty line. -/
structure ChunkedBody where
  chunks : List Chunk
  lastLine : Bytes
  trailers : List Bytes

namespace ChunkedBody

variable (body : ChunkedBody)

def bytes : Bytes := body.chunks.flatMap Chunk.bytes ++ (body.lastLine ++ ended body.trailers)

def total : ℕ := (body.chunks.map fun chunk => chunk.data.length).sum

/-- How often the stream is read for the body. -/
def reads : ℕ := 3 * body.chunks.length + (body.trailers.length + 2)

/-- The body with a chunk more in front. -/
def cons (chunk : Chunk) : ChunkedBody := { body with chunks := chunk :: body.chunks }

variable {body} {chunk : Chunk}

@[simp] theorem bytes_cons : (body.cons chunk).bytes = chunk.bytes ++ body.bytes := by
  simp [bytes, cons]

@[simp] theorem total_cons : (body.cons chunk).total = chunk.data.length + body.total := by
  simp [total, cons]

@[simp] theorem reads_cons : (body.cons chunk).reads = body.reads + 3 := by
  simp only [reads, cons, List.length_cons]
  omega

end ChunkedBody

/-- A chunk whose size is what `number?` makes of the text before the extension. -/
structure IsChunk (number? : Bytes → Option ℤ) (limit : ℕ) (chunk : Chunk) : Prop where
  isLine : IsLine limit chunk.sizeLine
  size : number? (rawSize chunk.sizeLine) = some (chunk.data.length : ℤ)
  pos : 0 < chunk.data.length

/-- A chunked body. -/
structure IsChunked (number? : Bytes → Option ℤ) (limit : ℕ) (body : ChunkedBody) : Prop where
  isChunk : ∀ chunk ∈ body.chunks, IsChunk number? limit chunk
  isLine : IsLine limit body.lastLine
  zero : number? (rawSize body.lastLine) = some 0
  isTrailer : ∀ trailer ∈ body.trailers, IsLine limit trailer ∧ 58 ∈ trailer

/-- A body within the limits, of which `total` bytes came before. -/
structure ChunkedBody.Within (limits : ResponseLimits) (total : ℕ) (body : ChunkedBody) : Prop where
  sizeLine_le : ∀ chunk ∈ body.chunks, chunk.sizeLine.length ≤ maximumSizeLine
  lastLine_le : body.lastLine.length ≤ maximumSizeLine
  total_le : total + body.total ≤ limits.maximumBodyBytes
  trailers_le : (ended body.trailers).length ≤ limits.maximumHeaderBytes
  count_le : body.trailers.length ≤ limits.maximumHeaderCount

/-! ## Trailers -/

section Trailers

variable {limits : ResponseLimits} {fuel budget count : ℕ} {r r' : StreamReader}

/-- Trailers that are read up to the empty line. -/
structure TrailerLines (limits : ResponseLimits) (budget count : ℕ) (r : StreamReader)
    (lines : List Bytes) (r' : StreamReader) : Prop where
  isTrailer : ∀ trailer ∈ lines, IsLine r.limit trailer ∧ 58 ∈ trailer
  length_le : (ended lines).length ≤ budget
  count_le : count + lines.length ≤ limits.maximumHeaderCount
  taken : r.rest = ended lines ++ r'.rest
  after : r' = r.skip (ended lines).length (lines.length + 1)

theorem trailers_eq_ok (hfuel : budget ≤ fuel) (hcount : count ≤ limits.maximumHeaderCount) :
    trailers limits fuel budget count r = (.ok (), r') ↔
      ∃ lines, TrailerLines limits budget count r lines r' := by
  induction fuel generalizing budget count r with
  | zero =>
      constructor
      · intro h
        cases h
      · rintro ⟨lines, h⟩
        have hle := h.length_le
        have hlength : 2 ≤ (ended lines).length := by simp [ended, crlfBytes]
        omega
  | succ fuel ih =>
      unfold trailers
      simp only [Reading.bind_eq, Reading.bind_eq_ok, readline_eq_ok]
      constructor
      · rintro ⟨trailer, r₁, ⟨hline, hle, hrest, hskip⟩, h⟩
        have htwo := hline.two_le
        by_cases hcrlf : trailer = crlfBytes
        · subst hcrlf
          rw [if_pos rfl] at h
          cases h
          exact ⟨[], ⟨by simp, hle, hcount, hrest, hskip⟩⟩
        · rw [if_neg hcrlf] at h
          obtain ⟨_, hcheck, h⟩ := Reading.lift_bind_eq_ok.mp h
          simp only [check_eq_ok, decide_eq_true_eq, List.contains_iff_mem] at hcheck
          obtain ⟨lines, hlines⟩ := (ih (by omega) hcheck.1).mp h
          have hlength := hlines.length_le
          have hcount_le := hlines.count_le
          refine ⟨trailer :: lines, ⟨?_, ?_, ?_, ?_, ?_⟩⟩
          · intro line hmem
            rcases List.mem_cons.mp hmem with rfl | hmem
            · exact ⟨hline, hcheck.2⟩
            · have htrailer := hlines.isTrailer line hmem
              rwa [hskip, limit_skip] at htrailer
          · rw [ended_cons, List.length_append]
            omega
          · rw [List.length_cons]
            omega
          · rw [hrest, hlines.taken, ended_cons, List.append_assoc]
          · rw [hlines.after, hskip, skip_skip, ended_cons, List.length_append, List.length_cons,
              Nat.add_comm 1]
      · rintro ⟨lines, hlines⟩
        have hlength := hlines.length_le
        have hcount_le := hlines.count_le
        have hrest := hlines.taken
        have hskip := hlines.after
        cases lines with
        | nil =>
            refine ⟨crlfBytes, r', ⟨isLine_crlf r, hlength, hrest, hskip⟩, ?_⟩
            rw [if_pos rfl]
            rfl
        | cons trailer lines =>
            obtain ⟨hline, hcolon⟩ := hlines.isTrailer trailer List.mem_cons_self
            have htwo := hline.two_le
            rw [ended_cons, List.length_append] at hlength
            rw [List.length_cons] at hcount_le
            rw [ended_cons, List.append_assoc] at hrest
            have hcrlf : trailer ≠ crlfBytes := by
              rintro rfl
              exact absurd hcolon (by decide)
            refine ⟨trailer, r.skip trailer.length 1, ⟨hline, by omega, ?_, rfl⟩, ?_⟩
            · rw [rest_skip, hrest, List.drop_left]
            rw [if_neg hcrlf]
            refine Reading.lift_bind_eq_ok.mpr ⟨(), ?_, ?_⟩
            · simp only [check_eq_ok, decide_eq_true_eq, List.contains_iff_mem]
              exact ⟨by omega, hcolon⟩
            refine (ih (by omega) (by omega)).mpr ⟨lines, ⟨?_, by omega, by omega, ?_, ?_⟩⟩
            · intro line hmem
              exact hlines.isTrailer line (List.mem_cons_of_mem _ hmem)
            · rw [rest_skip, hrest, List.drop_left]
            · rw [hskip, skip_skip, ended_cons, List.length_append, List.length_cons, Nat.add_comm 1]

theorem trailers_eq_error {e : PyError} (hfuel : budget ≤ fuel)
    (h : trailers limits fuel budget count r = (.error e, r')) :
    e.isDelivery = true ∧ r'.reads ≤ r.reads + budget + 1 := by
  induction fuel generalizing budget count r with
  | zero =>
      cases h
      exact ⟨rfl, by omega⟩
  | succ fuel ih =>
      unfold trailers at h
      rcases Reading.bind_eq_error.mp h with h | ⟨trailer, r₁, hread, h⟩
      · obtain ⟨rfl, hreads⟩ := readline_eq_error h
        exact ⟨rfl, by omega⟩
      obtain ⟨hline, hle, -, hskip⟩ := readline_eq_ok.mp hread
      have htwo := hline.two_le
      have hreads : r₁.reads = r.reads + 1 := by rw [hskip, reads_skip]
      by_cases hcrlf : trailer = crlfBytes
      · rw [if_pos hcrlf] at h
        cases h
      rw [if_neg hcrlf] at h
      rcases Reading.lift_bind_eq_error.mp h with ⟨he, rfl⟩ | ⟨_, -, h⟩
      · rw [(check_eq_error.mp he).2]
        exact ⟨rfl, by omega⟩
      obtain ⟨he, hle'⟩ := ih (by omega) h
      exact ⟨he, by omega⟩

end Trailers

/-! ## Chunks -/

section Chunks

variable {limits : ResponseLimits} {fuel total total' : ℕ} {r r' : StreamReader}

/-- A chunked body that is read. -/
structure Takes (number? : Bytes → Option ℤ) (limits : ResponseLimits) (total : ℕ)
    (r : StreamReader) (body : ChunkedBody) (total' : ℕ) (r' : StreamReader) : Prop where
  isChunked : IsChunked number? r.limit body
  within : body.Within limits total
  sum : total' = total + body.total
  taken : r.rest = body.bytes ++ r'.rest
  after : r' = r.skip body.bytes.length body.reads

theorem chunks_eq_ok (hfuel : limits.maximumBodyBytes < total + fuel) :
    chunks limits fuel total r = (.ok total', r') ↔
      ∃ body, Takes Bytes.hexInt? limits total r body total' r' := by
  induction fuel generalizing total r with
  | zero =>
      constructor
      · intro h
        cases h
      · rintro ⟨body, h⟩
        have hle := h.within.total_le
        omega
  | succ fuel ih =>
      unfold chunks
      constructor
      · intro h
        obtain ⟨line, r₁, hread, h⟩ := Reading.bind_eq_ok.mp h
        obtain ⟨hline, hline_le, hrest, hskip⟩ := readline_eq_ok.mp hread
        obtain ⟨size, hsize, h⟩ := Reading.lift_bind_eq_ok.mp h
        have hsize := orRaise_eq_ok.mp hsize
        obtain ⟨_, hcheck, h⟩ := Reading.lift_bind_eq_ok.mp h
        simp only [check_eq_ok, decide_eq_true_eq] at hcheck
        obtain ⟨hnonneg, hle⟩ := hcheck
        by_cases hzero : size = 0
        · rw [if_pos hzero] at h
          obtain ⟨_, r₂, htrailers, h⟩ := Reading.bind_eq_ok.mp h
          obtain ⟨rfl, rfl⟩ := Reading.ret_eq_ok.mp h
          obtain ⟨lines, hlines⟩ := (trailers_eq_ok le_rfl (Nat.zero_le _)).mp htrailers
          have htrailer := hlines.isTrailer
          have hcount := hlines.count_le
          rw [hskip, limit_skip] at htrailer
          rw [hzero] at hsize
          refine ⟨⟨[], line, lines⟩, ⟨⟨by simp, hline, hsize, htrailer⟩,
            ⟨by simp, hline_le, ?_, hlines.length_le, by simpa using hcount⟩, rfl, ?_, ?_⟩⟩
          · rw [hzero] at hle
            exact_mod_cast hle
          · simp only [ChunkedBody.bytes, List.flatMap_nil, List.nil_append, List.append_assoc]
            rw [hrest, hlines.taken]
          · rw [hlines.after, hskip, skip_skip]
            simp only [ChunkedBody.bytes, ChunkedBody.reads, List.flatMap_nil, List.nil_append,
              List.length_append, List.length_nil]
            congr 1
            omega
        · rw [if_neg hzero] at h
          obtain ⟨data, r₂, hdata, h⟩ := Reading.bind_eq_ok.mp h
          obtain ⟨ending, r₃, hending, h⟩ := Reading.bind_eq_ok.mp h
          obtain ⟨_, hcrlf, h⟩ := Reading.lift_bind_eq_ok.mp h
          simp only [check_eq_ok, decide_eq_true_eq] at hcrlf
          subst hcrlf
          obtain ⟨hlength, hrest₂, hskip₂⟩ := readexactly_eq_ok.mp hdata
          obtain ⟨-, hrest₃, hskip₃⟩ := readexactly_eq_ok.mp hending
          have hcast : (data.length : ℤ) = size := by omega
          obtain ⟨body, htakes⟩ := (ih (by omega)).mp h
          have hchunked := htakes.isChunked
          have hwithin := htakes.within
          have htotal := hwithin.total_le
          have hsum := htakes.sum
          rw [hskip₃, hskip₂, hskip, limit_skip, limit_skip, limit_skip] at hchunked
          refine ⟨body.cons ⟨line, data⟩, ⟨⟨?_, hchunked.isLine, hchunked.zero, hchunked.isTrailer⟩,
            ⟨?_, hwithin.lastLine_le, ?_, hwithin.trailers_le, hwithin.count_le⟩, ?_, ?_, ?_⟩⟩
          · intro chunk hmem
            rcases List.mem_cons.mp hmem with rfl | hmem
            · have hpos : 0 < data.length := by omega
              exact ⟨hline, by rw [hsize, hcast], hpos⟩
            · exact hchunked.isChunk chunk hmem
          · intro chunk hmem
            rcases List.mem_cons.mp hmem with rfl | hmem
            · exact hline_le
            · exact hwithin.sizeLine_le chunk hmem
          · rw [ChunkedBody.total_cons, hlength]
            omega
          · rw [ChunkedBody.total_cons, hlength]
            omega
          · rw [hrest, hrest₂, hrest₃, htakes.taken, ChunkedBody.bytes_cons, Chunk.bytes]
            simp only [List.append_assoc]
          · rw [htakes.after, hskip₃, hskip₂, hskip]
            simp only [skip_skip, ChunkedBody.bytes_cons, ChunkedBody.reads_cons, Chunk.bytes,
              List.length_append, hlength, crlfBytes, List.length_cons, List.length_nil]
            congr 1
            omega
      · rintro ⟨body, htakes⟩
        have hchunked := htakes.isChunked
        have hwithin := htakes.within
        have htotal := hwithin.total_le
        have htaken := htakes.taken
        have hafter := htakes.after
        have hsum := htakes.sum
        obtain ⟨bodyChunks, lastLine, lines⟩ := body
        cases bodyChunks with
        | nil =>
            have hzero := hchunked.zero
            have htaken : r.rest = lastLine ++ (ended lines ++ r'.rest) := by
              rw [htaken, ChunkedBody.bytes, List.flatMap_nil, List.nil_append, List.append_assoc]
            have hafter : r' = r.skip (lastLine.length + (ended lines).length) (lines.length + 2) := by
              rw [hafter, ChunkedBody.bytes, ChunkedBody.reads, List.flatMap_nil, List.nil_append,
                List.length_append, List.length_nil, Nat.mul_zero, Nat.zero_add]
            have hsum : total' = total := hsum
            refine Reading.bind_eq_ok.mpr ⟨lastLine, r.skip lastLine.length 1,
              readline_eq_ok.mpr ⟨hchunked.isLine, hwithin.lastLine_le, ?_, rfl⟩,
              Reading.lift_bind_eq_ok.mpr ⟨0, orRaise_eq_ok.mpr hzero,
                Reading.lift_bind_eq_ok.mpr ⟨(), ?_, ?_⟩⟩⟩
            · rw [rest_skip, htaken, List.drop_left]
            · simp only [check_eq_ok, decide_eq_true_eq]
              omega
            rw [if_pos rfl]
            refine Reading.bind_eq_ok.mpr ⟨(), r', (trailers_eq_ok le_rfl (Nat.zero_le _)).mpr
              ⟨lines, ⟨hchunked.isTrailer, hwithin.trailers_le, ?_, ?_, ?_⟩⟩,
              Reading.ret_eq_ok.mpr ⟨hsum, rfl⟩⟩
            · rw [Nat.zero_add]
              exact hwithin.count_le
            · rw [rest_skip, htaken, List.drop_left]
            · rw [hafter, skip_skip]
              congr 1
              omega
        | cons chunk bodyChunks =>
            let body : ChunkedBody := ⟨bodyChunks, lastLine, lines⟩
            have hchunk := hchunked.isChunk chunk List.mem_cons_self
            have hpos := hchunk.pos
            have hline_le := hwithin.sizeLine_le chunk List.mem_cons_self
            have hsplit : r.rest = chunk.sizeLine ++ (chunk.data ++ (crlfBytes ++ (body.bytes ++ r'.rest))) := by
              change r.rest = (body.cons chunk).bytes ++ r'.rest at htaken
              rw [htaken, ChunkedBody.bytes_cons, Chunk.bytes]
              simp only [List.append_assoc]
            change r' = r.skip (body.cons chunk).bytes.length (body.cons chunk).reads at hafter
            change total' = total + (body.cons chunk).total at hsum
            change total + (body.cons chunk).total ≤ limits.maximumBodyBytes at htotal
            rw [ChunkedBody.total_cons] at hsum htotal
            refine Reading.bind_eq_ok.mpr ⟨chunk.sizeLine, r.skip chunk.sizeLine.length 1,
              readline_eq_ok.mpr ⟨hchunk.isLine, hline_le, ?_, rfl⟩,
              Reading.lift_bind_eq_ok.mpr ⟨chunk.data.length, orRaise_eq_ok.mpr hchunk.size,
                Reading.lift_bind_eq_ok.mpr ⟨(), ?_, ?_⟩⟩⟩
            · rw [rest_skip, hsplit, List.drop_left]
            · simp only [check_eq_ok, decide_eq_true_eq]
              omega
            rw [if_neg (by omega)]
            refine Reading.bind_eq_ok.mpr ⟨chunk.data, _, readexactly_eq_ok.mpr ⟨rfl, ?_, rfl⟩,
              Reading.bind_eq_ok.mpr ⟨crlfBytes, _, readexactly_eq_ok.mpr ⟨rfl, ?_, rfl⟩,
                Reading.lift_bind_eq_ok.mpr ⟨(), check_eq_ok.mpr (decide_eq_true rfl), ?_⟩⟩⟩
            · simp only [rest_skip, hsplit, List.drop_left, Int.toNat_natCast]
            · simp only [rest_skip, hsplit, List.drop_left, Int.toNat_natCast]
              rfl
            refine (ih (by omega)).mpr ⟨body, ⟨⟨?_, hchunked.isLine, hchunked.zero,
              hchunked.isTrailer⟩, ⟨?_, hwithin.lastLine_le, by omega, hwithin.trailers_le,
                hwithin.count_le⟩, by omega, ?_, ?_⟩⟩
            · intro chunk' hmem
              exact hchunked.isChunk chunk' (List.mem_cons_of_mem _ hmem)
            · intro chunk' hmem
              exact hwithin.sizeLine_le chunk' (List.mem_cons_of_mem _ hmem)
            · simp only [rest_skip, hsplit, List.drop_left, Int.toNat_natCast]
              rfl
            · rw [hafter]
              simp only [skip_skip, ChunkedBody.bytes_cons, ChunkedBody.reads_cons, Chunk.bytes,
                List.length_append, Int.toNat_natCast, crlfBytes, List.length_cons, List.length_nil]
              congr 1
              omega

theorem chunks_eq_error {e : PyError} (hfuel : limits.maximumBodyBytes < total + fuel)
    (htotal : total ≤ limits.maximumBodyBytes)
    (h : chunks limits fuel total r = (.error e, r')) : e.isDelivery = true ∧
      r'.reads + 3 * total ≤
        r.reads + 3 * limits.maximumBodyBytes + limits.maximumHeaderBytes + 2 := by
  induction fuel generalizing total r with
  | zero => omega
  | succ fuel ih =>
      unfold chunks at h
      rcases Reading.bind_eq_error.mp h with h | ⟨line, r₁, hread, h⟩
      · obtain ⟨rfl, hreads⟩ := readline_eq_error h
        exact ⟨rfl, by omega⟩
      obtain ⟨-, -, -, hskip⟩ := readline_eq_ok.mp hread
      have hreads : r₁.reads = r.reads + 1 := by rw [hskip, reads_skip]
      rcases Reading.lift_bind_eq_error.mp h with ⟨he, rfl⟩ | ⟨size, -, h⟩
      · rw [(orRaise_eq_error.mp he).2]
        exact ⟨rfl, by omega⟩
      rcases Reading.lift_bind_eq_error.mp h with ⟨he, rfl⟩ | ⟨_, hcheck, h⟩
      · rw [(check_eq_error.mp he).2]
        exact ⟨rfl, by omega⟩
      simp only [check_eq_ok, decide_eq_true_eq] at hcheck
      by_cases hzero : size = 0
      · rw [if_pos hzero] at h
        rcases Reading.bind_eq_error.mp h with h | ⟨_, r₂, -, h⟩
        · obtain ⟨he, hle⟩ := trailers_eq_error le_rfl h
          exact ⟨he, by omega⟩
        · cases h
      rw [if_neg hzero] at h
      rcases Reading.bind_eq_error.mp h with h | ⟨data, r₂, hdata, h⟩
      · obtain ⟨rfl, hreads₂⟩ := readexactly_eq_error h
        exact ⟨rfl, by omega⟩
      obtain ⟨-, -, hskip₂⟩ := readexactly_eq_ok.mp hdata
      have hreads₂ : r₂.reads = r₁.reads + 1 := by rw [hskip₂, reads_skip]
      rcases Reading.bind_eq_error.mp h with h | ⟨ending, r₃, hending, h⟩
      · obtain ⟨rfl, hreads₃⟩ := readexactly_eq_error h
        exact ⟨rfl, by omega⟩
      obtain ⟨-, -, hskip₃⟩ := readexactly_eq_ok.mp hending
      have hreads₃ : r₃.reads = r₂.reads + 1 := by rw [hskip₃, reads_skip]
      rcases Reading.lift_bind_eq_error.mp h with ⟨he, rfl⟩ | ⟨_, -, h⟩
      · rw [(check_eq_error.mp he).2]
        exact ⟨rfl, by omega⟩
      obtain ⟨he, hle⟩ := ih (by omega) (by omega) h
      exact ⟨he, by omega⟩

end Chunks

/-! ## The grammar -/

/-- The number of plain hexadecimal digits. -/
def plainSize? (s : Bytes) : Option ℤ := (Bytes.hex? s).map Int.ofNat

theorem hexInt?_of_plainSize? {s : Bytes} {n : ℤ} (h : plainSize? s = some n) :
    Bytes.hexInt? s = some n := by
  obtain ⟨m, hm, rfl⟩ := Option.map_eq_some_iff.mp h
  exact Bytes.hexInt?_of_hex? hm

/-- A size that is read and plain is read as the plain one. -/
theorem plainSize?_of_hexInt? {s : Bytes} {n : ℤ} (h : Bytes.hexInt? s = some n)
    (hplain : (Bytes.hex? s).isSome = true) : plainSize? s = some n := by
  obtain ⟨m, hm⟩ := Option.isSome_iff_exists.mp hplain
  have hplain : plainSize? s = some (m : ℤ) := by
    rw [plainSize?, hm]
    rfl
  rw [hplain, ← hexInt?_of_plainSize? hplain, h]

/-- The size lines of a body. -/
def ChunkedBody.sizeLines (body : ChunkedBody) : List Bytes :=
  body.chunks.map Chunk.sizeLine ++ [body.lastLine]

section Grammar

variable {number? : Bytes → Option ℤ} {limit : ℕ} {body : ChunkedBody}

/-- A body of the grammar is one whose sizes are read. -/
theorem IsChunked.of_plain (h : IsChunked plainSize? limit body) :
    IsChunked Bytes.hexInt? limit body where
  isChunk := fun chunk hmem => by
    have hchunk := h.isChunk chunk hmem
    exact ⟨hchunk.isLine, hexInt?_of_plainSize? hchunk.size, hchunk.pos⟩
  isLine := h.isLine
  zero := hexInt?_of_plainSize? h.zero
  isTrailer := h.isTrailer

theorem IsChunked.plain (h : IsChunked Bytes.hexInt? limit body)
    (hplain : ∀ line ∈ body.sizeLines, (Bytes.hex? (rawSize line)).isSome = true) :
    IsChunked plainSize? limit body where
  isChunk := fun chunk hmem => by
    have hchunk := h.isChunk chunk hmem
    have hsizeLine : chunk.sizeLine ∈ body.sizeLines :=
      List.mem_append_left _ (List.mem_map_of_mem hmem)
    exact ⟨hchunk.isLine, plainSize?_of_hexInt? hchunk.size (hplain _ hsizeLine), hchunk.pos⟩
  isLine := h.isLine
  zero := plainSize?_of_hexInt? h.zero (hplain _ (List.mem_append_right _ (by simp)))
  isTrailer := h.isTrailer

theorem IsChunked.sizeLines_plain (h : IsChunked plainSize? limit body) :
    ∀ line ∈ body.sizeLines, (Bytes.hex? (rawSize line)).isSome = true := by
  have hsome : ∀ {s : Bytes} {n : ℤ}, plainSize? s = some n → (Bytes.hex? s).isSome = true := by
    intro s n hs
    obtain ⟨m, hm, -⟩ := Option.map_eq_some_iff.mp hs
    rw [hm]
    rfl
  intro line hmem
  rcases List.mem_append.mp hmem with hmem | hmem
  · obtain ⟨chunk, hchunk, rfl⟩ := List.mem_map.mp hmem
    exact hsome (h.isChunk chunk hchunk).size
  · rw [List.mem_singleton.mp hmem]
    exact hsome h.zero

/-- A stream starts with one line at most. -/
theorem isLine_unique {line line' rest rest' : Bytes} (h : IsLine limit line)
    (h' : IsLine limit line') (heq : line ++ rest = line' ++ rest') : line = line' := by
  obtain ⟨text, rfl, htext⟩ := h.split
  obtain ⟨text', rfl, htext'⟩ := h'.split
  have hne : (10 : UInt8) ∉ text ++ [13] := by simp [htext]
  have hne' : (10 : UInt8) ∉ text' ++ [13] := by simp [htext']
  have hbefore := beforeNewline_append hne rest
  have hbefore' := beforeNewline_append hne' rest'
  simp only [List.append_assoc, List.cons_append, List.nil_append] at heq hbefore hbefore'
  rw [heq, hbefore'] at hbefore
  rw [List.append_cancel_right hbefore]

/-- A body starts with one of its size lines. -/
theorem IsChunked.first (h : IsChunked number? limit body) :
    ∃ line ∈ body.sizeLines, ∃ rest, IsLine limit line ∧ body.bytes = line ++ rest := by
  obtain ⟨chunks, lastLine, lines⟩ := body
  cases chunks with
  | nil => exact ⟨lastLine, List.mem_singleton_self _, ended lines, h.isLine, rfl⟩
  | cons chunk chunks =>
      refine ⟨chunk.sizeLine, List.mem_cons_self,
        chunk.data ++ (crlfBytes ++ (chunks.flatMap Chunk.bytes ++ (lastLine ++ ended lines))),
        (h.isChunk chunk List.mem_cons_self).isLine, ?_⟩
      simp only [ChunkedBody.bytes, List.flatMap_cons, Chunk.bytes, List.append_assoc]

/-- No trailer is the empty line. -/
theorem crlf_append_ne {trailer rest rest' : Bytes} (h : IsLine limit trailer ∧ 58 ∈ trailer) :
    crlfBytes ++ rest ≠ trailer ++ rest' := by
  intro heq
  have hcrlf : IsLine limit crlfBytes := ⟨⟨[], rfl, by simp⟩, h.1.two_le.trans h.1.length_le⟩
  have hcolon := h.2
  rw [← isLine_unique hcrlf h.1 heq] at hcolon
  exact absurd hcolon (by decide)

theorem ended_unique {lines lines' : List Bytes} {rest rest' : Bytes}
    (h : ∀ line ∈ lines, IsLine limit line ∧ 58 ∈ line)
    (h' : ∀ line ∈ lines', IsLine limit line ∧ 58 ∈ line)
    (heq : ended lines ++ rest = ended lines' ++ rest') : lines = lines' := by
  induction lines generalizing lines' with
  | nil =>
      cases lines' with
      | nil => rfl
      | cons line' lines' =>
          rw [ended_nil, ended_cons, List.append_assoc] at heq
          exact absurd heq (crlf_append_ne (h' line' List.mem_cons_self))
  | cons line lines ih =>
      have hline := h line List.mem_cons_self
      cases lines' with
      | nil =>
          rw [ended_nil, ended_cons, List.append_assoc] at heq
          exact absurd heq.symm (crlf_append_ne hline)
      | cons line' lines' =>
          have hline' := h' line' List.mem_cons_self
          rw [ended_cons, ended_cons, List.append_assoc, List.append_assoc] at heq
          obtain rfl := isLine_unique hline.1 hline'.1 heq
          have hrest := List.append_cancel_left heq
          rw [ih (fun l hl => h l (List.mem_cons_of_mem _ hl))
            (fun l hl => h' l (List.mem_cons_of_mem _ hl)) hrest]

/-- A stream starts with one chunked body at most. -/
theorem IsChunked.unique {body' : ChunkedBody} {rest rest' : Bytes}
    (h : IsChunked number? limit body) (h' : IsChunked number? limit body')
    (heq : body.bytes ++ rest = body'.bytes ++ rest') : body = body' := by
  obtain ⟨chunks, lastLine, lines⟩ := body
  obtain ⟨chunks', lastLine', lines'⟩ := body'
  simp only [ChunkedBody.bytes, List.append_assoc] at heq
  induction chunks generalizing chunks' with
  | nil =>
      cases chunks' with
      | nil =>
          simp only [List.flatMap_nil, List.nil_append] at heq
          obtain rfl : lastLine = lastLine' := isLine_unique h.isLine h'.isLine heq
          obtain rfl : lines = lines' :=
            ended_unique h.isTrailer h'.isTrailer (List.append_cancel_left heq)
          rfl
      | cons chunk' chunks' =>
          -- a chunk has a size above zero
          have hchunk' := h'.isChunk chunk' List.mem_cons_self
          simp only [List.flatMap_nil, List.nil_append, List.flatMap_cons, Chunk.bytes,
            List.append_assoc] at heq
          have hlast := isLine_unique h.isLine hchunk'.isLine heq
          have hzero := h.zero
          have hpos := hchunk'.pos
          rw [show lastLine = chunk'.sizeLine from hlast, hchunk'.size] at hzero
          have hsize := Option.some.inj hzero
          omega
  | cons chunk chunks ih =>
      have hchunk := h.isChunk chunk List.mem_cons_self
      cases chunks' with
      | nil =>
          simp only [List.flatMap_nil, List.nil_append, List.flatMap_cons, Chunk.bytes,
            List.append_assoc] at heq
          have hlast := isLine_unique hchunk.isLine h'.isLine heq
          have hzero := h'.zero
          have hpos := hchunk.pos
          rw [show lastLine' = chunk.sizeLine from hlast.symm, hchunk.size] at hzero
          have hsize := Option.some.inj hzero
          omega
      | cons chunk' chunks' =>
          have hchunk' := h'.isChunk chunk' List.mem_cons_self
          obtain ⟨sizeLine, data⟩ := chunk
          obtain ⟨sizeLine', data'⟩ := chunk'
          simp only [List.flatMap_cons, Chunk.bytes, List.append_assoc] at heq
          obtain rfl : sizeLine = sizeLine' := isLine_unique hchunk.isLine hchunk'.isLine heq
          have hsize := hchunk.size
          rw [hchunk'.size] at hsize
          have hlength : data.length = data'.length := by
            have hcast := Option.some.inj hsize
            simp only at hcast
            omega
          obtain ⟨rfl, hrest⟩ := List.append_inj (List.append_cancel_left heq) hlength
          have htail := ih ⟨fun c hc => h.isChunk c (List.mem_cons_of_mem _ hc), h.isLine, h.zero,
            h.isTrailer⟩ chunks' ⟨fun c hc => h'.isChunk c (List.mem_cons_of_mem _ hc), h'.isLine,
            h'.zero, h'.isTrailer⟩ (List.append_cancel_left hrest)
          cases htail
          rfl

end Grammar

/-- The bodies of the grammar are taken and nothing else is, where each body the stream starts
with has plain sizes. -/
theorem discardChunked_grammar (limits : ResponseLimits) (r : StreamReader) :
    ((∀ total r', discardChunked limits r = (.ok total, r') ↔
        ∃ body, Takes plainSize? limits 0 r body total r') ∧
      ∀ e r', discardChunked limits r = (.error e, r') → e.isDelivery = true) ↔
    ∀ body rest, IsChunked Bytes.hexInt? r.limit body → body.Within limits 0 →
      r.rest = body.bytes ++ rest →
        ∀ line ∈ body.sizeLines, (Bytes.hex? (rawSize line)).isSome = true := by
  have hok : ∀ total r', discardChunked limits r = (.ok total, r') ↔
      ∃ body, Takes Bytes.hexInt? limits 0 r body total r' := by
    intro total r'
    exact chunks_eq_ok (by omega)
  constructor
  · rintro ⟨hgrammar, -⟩ body rest hchunked hwithin hrest
    have htakes : Takes Bytes.hexInt? limits 0 r body body.total
        (r.skip body.bytes.length body.reads) := by
      refine ⟨hchunked, hwithin, (Nat.zero_add _).symm, ?_, rfl⟩
      rw [rest_skip, hrest, List.drop_left]
    obtain ⟨body', htakes'⟩ := (hgrammar _ _).mp ((hok _ _).mpr ⟨body, htakes⟩)
    have hsame : body.bytes ++ rest = body'.bytes ++ (r.skip body.bytes.length body.reads).rest := by
      rw [← hrest, htakes'.taken]
    rw [hchunked.unique htakes'.isChunked.of_plain hsame]
    exact htakes'.isChunked.sizeLines_plain
  · intro hplain
    refine ⟨fun total r' => ⟨fun h => ?_, ?_⟩, fun e r' h => ?_⟩
    · obtain ⟨body, htakes⟩ := (hok total r').mp h
      have hsizes := hplain body r'.rest htakes.isChunked htakes.within htakes.taken
      exact ⟨body, ⟨htakes.isChunked.plain hsizes, htakes.within, htakes.sum, htakes.taken,
        htakes.after⟩⟩
    · rintro ⟨body, htakes⟩
      exact (hok total r').mpr ⟨body, ⟨htakes.isChunked.of_plain, htakes.within, htakes.sum,
        htakes.taken, htakes.after⟩⟩
    · exact (chunks_eq_error (by omega) (Nat.zero_le _) h).1

/-- A body of one byte, whose size has a sign and a prefix. -/
def signedChunk : StreamReader where
  rest := ascii "+0x1\r\nA\r\n0\r\n\r\n"
  limit := 65536
  arrived := fun _ => 0
  reads := 0
  limit_pos := by decide

/-- A size that is signed, with a prefix or with an underscore in it is taken as well. -/
theorem discardChunked_signed : ¬ ((∀ total r', discardChunked {} signedChunk = (.ok total, r') ↔
      ∃ body, Takes plainSize? {} 0 signedChunk body total r') ∧
    ∀ e r', discardChunked {} signedChunk = (.error e, r') → e.isDelivery = true) := by
  rintro ⟨hgrammar, -⟩
  have htaken : discardChunked {} signedChunk = (.ok 1, signedChunk.skip 16 5) := rfl
  obtain ⟨body, htakes⟩ := (hgrammar 1 _).mp htaken
  obtain ⟨line, hmem, rest, hline, hbytes⟩ := htakes.isChunked.first
  have hsize := htakes.isChunked.sizeLines_plain line hmem
  have hsigned : IsLine signedChunk.limit (ascii "+0x1\r\n") :=
    ⟨⟨ascii "+0x1", rfl, by decide⟩, by decide⟩
  have hstart : line ++ (rest ++ (signedChunk.skip 16 5).rest) =
      ascii "+0x1\r\n" ++ ascii "A\r\n0\r\n\r\n" := by
    rw [← List.append_assoc, ← hbytes, ← htakes.taken]
    rfl
  rw [isLine_unique hline hsigned hstart] at hsize
  exact absurd hsize (by decide)

end FastapiEffects
