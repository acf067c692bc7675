import FastapiEffects.Python.Calendar

/-! # Datetimes with a time zone

A `datetime` as a caller hands it over: what its clock reads, the fold of the reading, and a
time zone if it has one. Two readings of one zone are compared as they stand; readings of
different zones are compared as instants, and a reading whose offset depends on its fold is
equal to none of another zone.
-/

namespace Python

/-- What `utcoffset` may answer: a `timedelta` of less than a day. -/
structure UtcOffset where
  delta : Timedelta
  lt : |delta| < Datetime.day
deriving DecidableEq

/-- A `tzinfo`: `timezone(offset)`, or a zone the caller brings. -/
inductive Tzinfo (Z : Type) where
  | timezone (offset : UtcOffset)
  | host (zone : Z)
deriving DecidableEq

/-- The zones a caller brings: what `utcoffset` answers for a reading and its fold. -/
class HostZones (Z : Type) where
  utcoffset : Z → Datetime → Bool → Option UtcOffset

instance : HostZones Empty := ⟨fun zone => nomatch zone⟩

/-- A `datetime`: its reading is counted as if it were one of UTC. -/
structure LocalDatetime (Z : Type) where
  wall : Datetime
  fold : Bool
  tzinfo : Option (Tzinfo Z)
  valid : wall.Valid
deriving DecidableEq

namespace UtcOffset

def zero : UtcOffset := ⟨0, by decide⟩

/-- `timezone(timedelta(microseconds=n))` refuses a day and more. -/
def ofMicroseconds? (n : ℤ) : Option UtcOffset :=
  if h : |n| < Datetime.day then some ⟨n, h⟩ else none

end UtcOffset

namespace Tzinfo

/-- `datetime.UTC`. -/
def utc {Z : Type} : Tzinfo Z := .timezone .zero

/-- `tzinfo.utcoffset(...)`. -/
def utcoffset {Z : Type} [HostZones Z] (wall : Datetime) (fold : Bool) :
    Tzinfo Z → Option UtcOffset
  | .timezone offset => some offset
  | .host zone => HostZones.utcoffset zone wall fold

end Tzinfo

namespace LocalDatetime

section

variable {Z : Type}

/-- A reading of UTC. -/
def ofUtc (t : Datetime) (h : t.Valid) : LocalDatetime Z := ⟨t, false, some .utc, h⟩

variable [HostZones Z]

/-- `t.utcoffset()`. -/
def utcoffset (t : LocalDatetime Z) : Option UtcOffset :=
  t.tzinfo.bind (Tzinfo.utcoffset t.wall t.fold)

/-- The instant of an aware reading. -/
def instant (t : LocalDatetime Z) : ℤ := t.wall - (t.utcoffset.getD .zero).delta

/-- Whether the offset is another one in the other fold. -/
def foldMatters (t : LocalDatetime Z) : Bool :=
  t.tzinfo.bind (Tzinfo.utcoffset t.wall !t.fold) ≠ t.utcoffset

variable [DecidableEq Z]

/-- `t < u`, of aware readings. -/
def before (t u : LocalDatetime Z) : Bool :=
  if t.tzinfo = u.tzinfo then t.wall < u.wall else t.instant < u.instant

/-- `t == u`, of aware readings. -/
def equals (t u : LocalDatetime Z) : Bool :=
  if t.tzinfo = u.tzinfo then t.wall = u.wall
  else t.instant = u.instant ∧ ¬ t.foldMatters ∧ ¬ u.foldMatters

/-- `t - u`; `none` is the `TypeError` of a reading with an offset and one without. -/
def sub? (t u : LocalDatetime Z) : Option Timedelta :=
  if t.tzinfo = u.tzinfo then some (t.wall - u.wall)
  else if t.utcoffset.isSome = u.utcoffset.isSome then some (t.instant - u.instant) else none

/-- `t.astimezone(UTC)`, which raises `OverflowError` before the year 1 and after the year 9999. -/
def astimezoneUtc? (t : LocalDatetime Z) : Option (LocalDatetime Z) :=
  if t.tzinfo = some .utc then some t
  else if h : Datetime.Valid t.instant then some (ofUtc t.instant h) else none

/-- A reading that UTC has, and that is equal to it. -/
def InUtc (t : LocalDatetime Z) : Prop := Datetime.Valid t.instant ∧ t.foldMatters = false

instance (t : LocalDatetime Z) : Decidable t.InUtc := inferInstanceAs (Decidable (_ ∧ _))

omit [DecidableEq Z] in
theorem instant_of_utc {t : LocalDatetime Z} (h : t.tzinfo = some .utc) : t.instant = t.wall := by
  simp [instant, utcoffset, h, Tzinfo.utc, Tzinfo.utcoffset, UtcOffset.zero]

omit [DecidableEq Z] in
theorem foldMatters_of_utc {t : LocalDatetime Z} (h : t.tzinfo = some .utc) :
    t.foldMatters = false := by
  simp [foldMatters, utcoffset, h, Tzinfo.utc, Tzinfo.utcoffset]

omit [DecidableEq Z] in
@[simp] theorem instant_ofUtc (t : Datetime) (h : t.Valid) :
    (ofUtc t h : LocalDatetime Z).instant = t := instant_of_utc rfl

/-- The conversion to UTC keeps the instant. -/
theorem exists_astimezoneUtc? {t : LocalDatetime Z} (h : Datetime.Valid t.instant) :
    ∃ u, t.astimezoneUtc? = some u ∧ u.wall = t.instant ∧ u.tzinfo = some .utc := by
  unfold astimezoneUtc?
  split_ifs with hutc
  · exact ⟨t, rfl, (instant_of_utc hutc).symm, hutc⟩
  · exact ⟨_, rfl, rfl, rfl⟩

/-- Only an instant outside the years of `datetime` cannot be converted. -/
theorem astimezoneUtc?_eq_none {t : LocalDatetime Z} (h : ¬ Datetime.Valid t.instant) :
    t.astimezoneUtc? = none := by
  unfold astimezoneUtc?
  split_ifs with hutc
  · rw [instant_of_utc hutc] at h
    exact absurd t.valid h
  · rfl

/-- A reading is equal to the reading of UTC at its instant, unless its fold matters. -/
theorem ofUtc_equals {t : LocalDatetime Z} (h : Datetime.Valid t.instant) :
    (ofUtc t.instant h : LocalDatetime Z).equals t = !t.foldMatters := by
  have hfold : (ofUtc t.instant h : LocalDatetime Z).foldMatters = false := foldMatters_of_utc rfl
  unfold equals
  split_ifs with hzone
  · have hutc : t.tzinfo = some .utc := hzone.symm
    rw [foldMatters_of_utc hutc]
    exact decide_eq_true (instant_of_utc hutc)
  · rw [instant_ofUtc, hfold]
    simp

/-- Readings of UTC are in the order of their instants. -/
theorem ofUtc_before {t u : Datetime} (ht : t.Valid) (hu : u.Valid) :
    (ofUtc t ht : LocalDatetime Z).before (ofUtc u hu) = decide (t < u) :=
  if_pos rfl

end

end LocalDatetime

end Python
