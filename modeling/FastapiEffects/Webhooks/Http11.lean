import FastapiEffects.Python.Dict
import FastapiEffects.Python.Digits
import FastapiEffects.Python.Stream
import FastapiEffects.Webhooks.Transport

/-! # Reading a response

`parse_response` of `http11`: the informational responses, the head of the final one, and its
body, which is read and dropped. A line takes two bytes of its budget at least, so the budget
is also the fuel of a loop over lines; a chunk takes a byte of the body limit at least.
Timeouts are left out.
-/

namespace FastapiEffects

open Python

/-- `ResponseLimits`, without its timeout. -/
structure ResponseLimits where
  maximumHeaderBytes : ℕ := 32 * 1024
  maximumHeaderCount : ℕ := 128
  maximumInformationalResponses : ℕ := 8
  maximumBodyBytes : ℕ := 64 * 1024
  bytes_pos : 1 ≤ maximumHeaderBytes := by decide
  count_pos : 1 ≤ maximumHeaderCount := by decide
  informational_pos : 1 ≤ maximumInformationalResponses := by decide
  body_pos : 1 ≤ maximumBodyBytes := by decide

/-- `_oversized`, also the error of a line above the limit of the stream. -/
def oversized : PyError := .retryableDelivery "webhook.response_bounds"
  "Webhook receiver response exceeded safe bounds." none

/-- `_malformed`. -/
def malformed : PyError := .retryableDelivery "webhook.response_malformed"
  "Webhook receiver returned malformed HTTP." none

/-- `_unsupported_upgrade`. -/
def unsupportedUpgrade : PyError := .permanentDelivery "webhook.protocol_upgrade_unsupported"
  "Webhook receiver requested an unsupported protocol upgrade."

/-- The error of `_readexactly`. -/
def incompleteResponse : PyError := .retryableDelivery "webhook.response_incomplete"
  "Webhook receiver closed an incomplete response." none

/-! ## Pieces of a stream -/

/-- The bytes of ASCII text. -/
def ascii (s : String) : Bytes := s.toList.map fun c => UInt8.ofNat c.toNat

def crlfBytes : Bytes := [13, 10]

/-- `_readline`. -/
def readline (budget : ℕ) : Reading PyError Bytes := fun r =>
  if budget < 2 then (.error oversized, r)
  else match r.readline with
    | (none, r') => (.error oversized, r')
    | (some line, r') =>
        if line = [] ∨ budget < line.length ∨ ¬ crlfBytes.isSuffixOf line then (.error oversized, r')
        else (.ok line, r')

/-- `_readexactly`. -/
def readexactly (size : ℕ) : Reading PyError Bytes := fun r =>
  match r.readexactly size with
  | (none, r') => (.error incompleteResponse, r')
  | (some bytes, r') => (.ok bytes, r')

/-- `reader.read`, which raises nothing. -/
def readSome (size : ℕ) : Reading PyError Bytes := fun r => (.ok (r.read size).1, (r.read size).2)

/-! ## Lines -/

def isDigitByte (b : UInt8) : Bool := 48 ≤ b ∧ b ≤ 57

/-- What may follow the status code. -/
def isReason (tail : Bytes) : Bool :=
  tail = crlfBytes ∨ (tail.head? = some 32 ∧ crlfBytes.isSuffixOf tail.tail ∧
    (tail.tail.take (tail.tail.length - 2)).all fun b => 32 ≤ b ∧ b ≤ 126)

/-- `_STATUS_LINE.fullmatch` and the status code. -/
def statusOf? (line : Bytes) : Option ℕ :=
  let digits := (line.drop 9).take 3
  if line.take 7 = ascii "HTTP/1." ∧ (line.drop 7).take 2 ∈ [ascii "0 ", ascii "1 "] ∧
      digits.length = 3 ∧ digits.all isDigitByte ∧ isReason (line.drop 12) then
    some (digits.foldl (fun n d => n * 10 + (d.toNat - 48)) 0)
  else none

/-- A character of `_HEADER_NAME`. -/
def isNameByte (b : UInt8) : Bool :=
  PyChar.isIn [('0', '9'), ('A', 'Z'), ('a', 'z')]
    ['!', '#', '$', '%', '&', '\'', '*', '+', '-', '.', '^', '_', '\x60', '|', '~'] (Str.ofByte b)

/-- The key and the value of a header line. -/
def headerOf? (line : Bytes) : Option (Str × Str) :=
  let content := line.take (line.length - 2)
  let name := content.takeWhile (· ≠ 58)
  let value := Bytes.latin1 (Bytes.strip [32, 9] (content.drop (name.length + 1)))
  if content.contains 58 ∧ name ≠ [] ∧ name.all isNameByte ∧
      ¬ value.any (PyChar.isIn [] ['\r', '\n', '\x00']) then
    some ((Bytes.latin1 name).map PyChar.asciiLower, value)
  else none

/-- A header after those before it; two lengths must agree. -/
def addHeader (headers : Dict Str Str) (key value : Str) : Except PyError (Dict Str Str) :=
  match headers.get key with
  | some old =>
      if key = "content-length" ∧ old ≠ value then .error malformed
      else .ok (headers.set key (old ++ ", " ++ value))
  | none => .ok (headers.set key value)

/-! ## The head of a response -/

section Head

variable (limits : ResponseLimits)

/-- The inner loop of `parse_response`: the headers up to the empty line, with what is left of
the budget and how many headers there were. -/
def headerLines : ℕ → ℕ → ℕ → Dict Str Str → Reading PyError (ℕ × ℕ × Dict Str Str)
  | 0, _, _, _ => .raise oversized
  | fuel + 1, budget, count, headers => do
      let line ← readline budget
      if line = crlfBytes then return (budget - line.length, count, headers)
      Reading.lift (check (count + 1 ≤ limits.maximumHeaderCount ∧
        line.head? ≠ some 32 ∧ line.head? ≠ some 9) oversized)
      let (key, value) ← Reading.lift (orRaise (headerOf? line) malformed)
      let headers ← Reading.lift (addHeader headers key value)
      headerLines fuel (budget - line.length) (count + 1) headers

/-- The outer loop of `parse_response`: the responses up to the final one. -/
def responses : ℕ → ℕ → ℕ → ℕ → Reading PyError (ℕ × Dict Str Str)
  | 0, _, _, _ => .raise oversized
  | fuel + 1, budget, count, informational => do
      let statusLine ← readline budget
      let status ← Reading.lift (orRaise (statusOf? statusLine) malformed)
      let left := budget - statusLine.length
      let (budget, count, headers) ← headerLines limits left left count .empty
      Reading.lift (check (status ≠ 101) unsupportedUpgrade)
      if 100 ≤ status ∧ status < 200 then
        Reading.lift (check (informational + 1 ≤ limits.maximumInformationalResponses) oversized)
        responses fuel budget count (informational + 1)
      else return (status, headers)

end Head

/-! ## The body -/

section Body

variable (limits : ResponseLimits)

/-- The trailers after the last chunk. -/
def trailers : ℕ → ℕ → ℕ → Reading PyError Unit
  | 0, _, _ => .raise oversized
  | fuel + 1, budget, count => do
      let trailer ← readline budget
      if trailer = crlfBytes then return ()
      Reading.lift (check (count + 1 ≤ limits.maximumHeaderCount ∧ trailer.contains 58) oversized)
      trailers fuel (budget - trailer.length) (count + 1)

/-- The longest size line. -/
def maximumSizeLine : ℕ := 1024

/-- `raw_size`: a size line before its extension. -/
def rawSize (line : Bytes) : Bytes := (line.take (line.length - 2)).takeWhile (· ≠ 59)

/-- The loop of `_discard_chunked`. -/
def chunks : ℕ → ℕ → Reading PyError ℕ
  | 0, _ => .raise oversized
  | fuel + 1, total => do
      let line ← readline maximumSizeLine
      let size ← Reading.lift (orRaise (Bytes.hexInt? (rawSize line)) malformed)
      Reading.lift (check (0 ≤ size ∧ total + size ≤ limits.maximumBodyBytes) oversized)
      if size = 0 then
        trailers limits limits.maximumHeaderBytes limits.maximumHeaderBytes 0
        return total
      let _ ← readexactly size.toNat
      let ending ← readexactly 2
      Reading.lift (check (ending = crlfBytes) malformed)
      chunks fuel (total + size.toNat)

/-- `_discard_chunked`. -/
def discardChunked : Reading PyError ℕ := chunks limits (limits.maximumBodyBytes + 1) 0

/-- The loop of `_discard_body` for a response that ends with its connection. -/
def untilClose : ℕ → ℕ → Reading PyError ℕ
  | 0, _ => .raise oversized
  | fuel + 1, total => do
      let chunk ← readSome (min 8192 (limits.maximumBodyBytes - total + 1))
      if chunk = [] then return total
      Reading.lift (check (total + chunk.length ≤ limits.maximumBodyBytes) oversized)
      untilClose fuel (total + chunk.length)

variable [Digits]

/-- A body of the length that the response says. -/
def discardLength (contentLength : Str) : Reading PyError ℕ := do
  Reading.lift (check contentLength.isdigit malformed)
  -- the `ValueError` of `int` is not caught
  let length ← Reading.lift (orRaise contentLength.intOfDigits? .value)
  Reading.lift (check (length ≤ limits.maximumBodyBytes) oversized)
  let _ ← readexactly length
  return length

variable [Platform]

/-- `_discard_body`. -/
def discardBody (status : ℕ) (headers : Dict Str Str) : Reading PyError ℕ :=
  if (100 ≤ status ∧ status < 200) ∨ status = 204 ∨ status = 304 then .ret 0
  else match headers.get "transfer-encoding" with
    | some transfer =>
        if (Platform.lower transfer).strip ≠ "chunked" then .raise malformed
        else discardChunked limits
    | none =>
        match headers.get "content-length" with
        | some contentLength => discardLength limits contentLength
        | none => untilClose limits (limits.maximumBodyBytes + 2) 0

/-- `parse_response`. -/
def parseResponse : Reading PyError HttpResponseMetadata := do
  let (status, headers) ← responses limits limits.maximumHeaderBytes limits.maximumHeaderBytes 0 0
  let discarded ← discardBody limits status headers
  return ⟨status, headers.items, discarded⟩

end Body

end FastapiEffects
