import FastapiEffects.Python.Str

/-! # Reading a stream

An `asyncio.StreamReader` whose peer sends finitely many bytes and closes, and computations
that read from it. A reading may raise, and what it has read by then is gone. The bytes
arrive in pieces of any sizes; only `read` shows how.

`Reading.Ends` is the rule to reason with: what holds when a reading returns, and what when
it raises.
-/

namespace Python

/-- A stream: the bytes still to come, the longest line it takes, how many bytes have arrived
when it is read for the n-th time, and how often it was read. -/
structure StreamReader where
  rest : Bytes
  limit : ℕ
  arrived : ℕ → ℕ
  reads : ℕ
  limit_pos : 0 < limit

namespace StreamReader

/-- The stream after a read that took `n` bytes. -/
def advance (r : StreamReader) (n : ℕ) : StreamReader :=
  { r with rest := r.rest.drop n, reads := r.reads + 1 }

@[simp] theorem rest_advance (r : StreamReader) (n : ℕ) : (r.advance n).rest = r.rest.drop n := rfl

@[simp] theorem limit_advance (r : StreamReader) (n : ℕ) : (r.advance n).limit = r.limit := rfl

@[simp] theorem reads_advance (r : StreamReader) (n : ℕ) : (r.advance n).reads = r.reads + 1 := rfl

/-- The stream after `reads` reads that took `n` bytes together. -/
def skip (r : StreamReader) (n reads : ℕ) : StreamReader :=
  { r with rest := r.rest.drop n, reads := r.reads + reads }

@[simp] theorem rest_skip (r : StreamReader) (n k : ℕ) : (r.skip n k).rest = r.rest.drop n := rfl

@[simp] theorem limit_skip (r : StreamReader) (n k : ℕ) : (r.skip n k).limit = r.limit := rfl

@[simp] theorem reads_skip (r : StreamReader) (n k : ℕ) : (r.skip n k).reads = r.reads + k := rfl

theorem advance_eq_skip (r : StreamReader) (n : ℕ) : r.advance n = r.skip n 1 := rfl

@[simp] theorem skip_zero (r : StreamReader) : r.skip 0 0 = r := rfl

theorem skip_skip (r : StreamReader) (m n j k : ℕ) :
    (r.skip m j).skip n k = r.skip (m + n) (j + k) := by
  simp only [skip, List.drop_drop, Nat.add_assoc]

/-- The bytes before the next line feed. -/
def beforeNewline (s : Bytes) : Bytes := s.takeWhile (· ≠ 10)

/-- `reader.readline()`: a line with its line feed, or what there is at the end of the stream;
`none` is the `ValueError` for a line above the limit. -/
def readline (r : StreamReader) : Option Bytes × StreamReader :=
  let before := beforeNewline r.rest
  let line := r.rest.take (before.length + 1)
  (if before.length ≤ r.limit then some line else none, r.advance line.length)

/-- `reader.readexactly(n)`; `none` is an `IncompleteReadError`. -/
def readexactly (n : ℕ) (r : StreamReader) : Option Bytes × StreamReader :=
  (if n ≤ r.rest.length then some (r.rest.take n) else none, r.advance n)

/-- `reader.read(n)` of at least one byte: what has arrived, none of it only at the end. -/
def read (n : ℕ) (r : StreamReader) : Bytes × StreamReader :=
  let size := min n (r.arrived r.reads + 1)
  (r.rest.take size, r.advance size)

end StreamReader

/-- A computation that reads a stream and may raise an `ε`. -/
def Reading (ε α : Type) : Type := StreamReader → Except ε α × StreamReader

namespace Reading

variable {ε α β : Type}

def ret (a : α) : Reading ε α := fun r => (.ok a, r)

def raise (e : ε) : Reading ε α := fun r => (.error e, r)

def bind (x : Reading ε α) (f : α → Reading ε β) : Reading ε β := fun r =>
  match x r with
  | (.ok a, r') => f a r'
  | (.error e, r') => (.error e, r')

/-- A computation that reads nothing. -/
def lift (x : Except ε α) : Reading ε α := fun r => (x, r)

instance : Monad (Reading ε) where
  pure := ret
  bind := bind

@[simp] theorem pure_eq (a : α) : (pure a : Reading ε α) = ret a := rfl

@[simp] theorem bind_eq (x : Reading ε α) (f : α → Reading ε β) : (x >>= f) = x.bind f := rfl

/-- From `r` the reading returns as `post` says, or raises as `epost` says. -/
def Ends (post : α → StreamReader → Prop) (epost : ε → StreamReader → Prop) (x : Reading ε α)
    (r : StreamReader) : Prop :=
  match x r with
  | (.ok a, r') => post a r'
  | (.error e, r') => epost e r'

variable {post post' : α → StreamReader → Prop} {epost epost' : ε → StreamReader → Prop}
  {r : StreamReader}

theorem Ends.mono (hpost : ∀ a r, post a r → post' a r) (hepost : ∀ e r, epost e r → epost' e r)
    {x : Reading ε α} (h : x.Ends post epost r) : x.Ends post' epost' r := by
  unfold Ends at h ⊢
  split at h
  · exact hpost _ _ h
  · exact hepost _ _ h

/-- What holds of the result of a reading that returned. -/
theorem Ends.of_ok {x : Reading ε α} (h : x.Ends post epost r) {a : α} {r' : StreamReader}
    (hx : x r = (.ok a, r')) : post a r' := by
  unfold Ends at h
  rw [hx] at h
  exact h

theorem Ends.of_error {x : Reading ε α} (h : x.Ends post epost r) {e : ε} {r' : StreamReader}
    (hx : x r = (.error e, r')) : epost e r' := by
  unfold Ends at h
  rw [hx] at h
  exact h

theorem ends_iff {x : Reading ε α} : x.Ends post epost r ↔
    (∀ a r', x r = (.ok a, r') → post a r') ∧ ∀ e r', x r = (.error e, r') → epost e r' := by
  constructor
  · intro h
    exact ⟨fun _ _ => h.of_ok, fun _ _ => h.of_error⟩
  · rintro ⟨hok, herror⟩
    unfold Ends
    rcases hx : x r with ⟨a | e, r'⟩
    · exact herror _ _ hx
    · exact hok _ _ hx

/-- Two readings in sequence. -/
theorem ends_bind {post : β → StreamReader → Prop} {x : Reading ε α} {f : α → Reading ε β} :
    (x.bind f).Ends post epost r ↔ x.Ends (fun a r => (f a).Ends post epost r) epost r := by
  unfold Ends bind
  rcases x r with ⟨a | e, r'⟩ <;> rfl

@[simp] theorem ends_raise {e : ε} : (raise e : Reading ε α).Ends post epost r ↔ epost e r := Iff.rfl

/-- What is read after a computation that reads nothing. -/
theorem ends_lift_bind {post : β → StreamReader → Prop} {x : Except ε α} {f : α → Reading ε β}
    (hok : ∀ a, x = .ok a → (f a).Ends post epost r) (herror : ∀ e, x = .error e → epost e r) :
    ((lift x).bind f).Ends post epost r := by
  cases x with
  | ok a => exact hok a rfl
  | error e => exact herror e rfl

/-- A sequence of two readings returns when both do. -/
theorem bind_eq_ok {x : Reading ε α} {f : α → Reading ε β} {b : β} {r'' : StreamReader} :
    x.bind f r = (.ok b, r'') ↔ ∃ a r', x r = (.ok a, r') ∧ f a r' = (.ok b, r'') := by
  unfold bind
  rcases x r with ⟨a | e, r'⟩
  · simp
  · simp

/-- It raises what the first one raises, or what the second one does after it. -/
theorem bind_eq_error {x : Reading ε α} {f : α → Reading ε β} {e : ε} {r'' : StreamReader} :
    x.bind f r = (.error e, r'') ↔
      x r = (.error e, r'') ∨ ∃ a r', x r = (.ok a, r') ∧ f a r' = (.error e, r'') := by
  unfold bind
  rcases x r with ⟨a | e', r'⟩
  · simp
  · simp

theorem lift_bind_eq_ok {x : Except ε α} {f : α → Reading ε β} {b : β} {r' : StreamReader} :
    (lift x).bind f r = (.ok b, r') ↔ ∃ a, x = .ok a ∧ f a r = (.ok b, r') := by
  unfold lift bind
  cases x with
  | ok a => simp
  | error e => simp

theorem lift_bind_eq_error {x : Except ε α} {f : α → Reading ε β} {e : ε} {r' : StreamReader} :
    (lift x).bind f r = (.error e, r') ↔
      (x = .error e ∧ r' = r) ∨ ∃ a, x = .ok a ∧ f a r = (.error e, r') := by
  unfold lift bind
  cases x with
  | ok a => simp
  | error e' => simp [eq_comm]

theorem ret_eq_ok {a b : α} {r' : StreamReader} :
    (ret a : Reading ε α) r = (.ok b, r') ↔ b = a ∧ r' = r := by
  simp [ret, eq_comm]

end Reading

/-! ## Lines -/

namespace StreamReader

/-- A line that ends with CRLF and has no other line feed. -/
structure IsLine (limit : ℕ) (line : Bytes) : Prop where
  split : ∃ text : Bytes, line = text ++ [13, 10] ∧ 10 ∉ text
  length_le : line.length ≤ limit + 1

theorem IsLine.two_le {limit : ℕ} {line : Bytes} (h : IsLine limit line) : 2 ≤ line.length := by
  obtain ⟨text, rfl, -⟩ := h.split
  simp

theorem beforeNewline_append {text : Bytes} (h : (10 : UInt8) ∉ text) (rest : Bytes) :
    beforeNewline (text ++ 10 :: rest) = text := by
  have hne : ∀ b ∈ text, decide (b ≠ 10) = true :=
    fun b hb => decide_eq_true fun heq => h (heq ▸ hb)
  rw [beforeNewline, List.takeWhile_append_of_pos hne]
  simp

/-- A line at the front of the stream is read. -/
theorem readline_of_isLine {r : StreamReader} {line rest : Bytes} (h : IsLine r.limit line)
    (hrest : r.rest = line ++ rest) : r.readline = (some line, r.advance line.length) := by
  obtain ⟨text, rfl, htext⟩ := h.split
  have hlength := h.length_le
  have hne : (10 : UInt8) ∉ text ++ [13] := by simp [htext]
  have hbefore : beforeNewline r.rest = text ++ [13] := by
    rw [hrest]
    have happend := beforeNewline_append hne rest
    simpa using happend
  simp only [List.length_append, List.length_cons, List.length_nil] at hlength
  have htake : r.rest.take ((text ++ [13]).length + 1) = text ++ [13, 10] := by
    rw [hrest]
    exact List.take_left' (by simp)
  have hle : (text ++ [13]).length ≤ r.limit := by
    simp only [List.length_append, List.length_cons, List.length_nil]
    omega
  rw [readline, hbefore, htake, if_pos hle]

/-- What is read as a line and ends with CRLF is one. -/
theorem isLine_of_readline {r r' : StreamReader} {line : Bytes} (h : r.readline = (some line, r'))
    (hends : [13, 10] <:+ line) :
    IsLine r.limit line ∧ r.rest = line ++ r'.rest ∧ r' = r.advance line.length := by
  unfold readline at h
  obtain ⟨hline, hr'⟩ := Prod.mk.inj h
  split_ifs at hline with hlimit
  have hline := Option.some.inj hline
  obtain ⟨text, htext⟩ := hends
  subst htext
  have hlength : (text ++ [13, 10]).length ≤ (beforeNewline r.rest).length + 1 := by
    rw [← hline]
    exact List.length_take_le _ _
  rw [hline] at hr'
  have hprefix : text ++ [13, 10] <+: r.rest := hline ▸ List.take_prefix _ r.rest
  refine ⟨⟨⟨text, rfl, ?_⟩, by omega⟩, ?_, hr'.symm⟩
  · -- the bytes before the last are before the first line feed
    intro hmem
    have hbefore : beforeNewline r.rest <+: r.rest := List.takeWhile_prefix _
    have hle : text.length ≤ (beforeNewline r.rest).length := by
      simp only [List.length_append, List.length_cons, List.length_nil] at hlength
      omega
    have hin := (List.prefix_of_prefix_length_le ((List.prefix_append _ _).trans hprefix) hbefore
      hle).subset hmem
    have hne := List.mem_takeWhile_imp hin
    simp at hne
  · rw [← hr', rest_advance]
    exact (List.prefix_iff_eq_append.mp hprefix).symm

end StreamReader

end Python
