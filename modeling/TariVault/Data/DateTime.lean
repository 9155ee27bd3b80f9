import Mathlib.Order.Defs.LinearOrder
import Mathlib.Order.Basic
import TariVault.Data.Calendar

namespace TariVault

/-! # Instants

`DateTime<Utc>` as a number of nanoseconds since the Unix epoch, inside the range
its calendar supports.
-/

def nanosPerSecond : Int := 1000000000

def nanosPerDay : Int := 86400 * nanosPerSecond

/-- The day number of 1 January 1970. -/
def epochDay : Int := Calendar.yearStart 1970

def yearNanos (year : Int) : Int := (Calendar.yearStart year - epochDay) * nanosPerDay

structure DateTime where
  nanos : Int
  lower : yearNanos (-262143) ≤ nanos
  upper : nanos < yearNanos 262143
deriving DecidableEq

namespace DateTime

theorem nanos_injective : Function.Injective DateTime.nanos := by
  intro left right same
  cases left
  cases right
  simpa using same

instance : LinearOrder DateTime := LinearOrder.lift' DateTime.nanos nanos_injective

theorem lt_iff {left right : DateTime} : left < right ↔ left.nanos < right.nanos := Iff.rfl

theorem le_iff {left right : DateTime} : left ≤ right ↔ left.nanos ≤ right.nanos := Iff.rfl

/-- 1 January 1970, 00:00:00 UTC. -/
def epoch : DateTime := ⟨0, by decide, by decide⟩

def ofNanos? (nanos : Int) : Option DateTime :=
  if range : yearNanos (-262143) ≤ nanos ∧ nanos < yearNanos 262143 then
    some ⟨nanos, range.1, range.2⟩
  else none

theorem ofNanos?_eq_some {nanos : Int} {time : DateTime} :
    ofNanos? nanos = some time ↔ time.nanos = nanos := by
  unfold ofNanos?
  constructor
  · intro made
    split at made
    · cases made
      rfl
    · contradiction
  · intro same
    subst same
    rw [dif_pos ⟨time.lower, time.upper⟩]

theorem isSome_ofNanos? {nanos : Int} : (ofNanos? nanos).isSome ↔
    yearNanos (-262143) ≤ nanos ∧ nanos < yearNanos 262143 := by
  unfold ofNanos?
  split
  · rename_i range
    exact iff_of_true rfl range
  · rename_i range
    exact iff_of_false (by simp) range

/-- The day number, counted from 1 January of year 0. -/
def day (time : DateTime) : Int := time.nanos / nanosPerDay + epochDay

def date (time : DateTime) : Calendar.Date := Calendar.date time.day

def year (time : DateTime) : Int := Calendar.yearOf time.day

def secondOfDay (time : DateTime) : Int := time.nanos % nanosPerDay / nanosPerSecond

def subsecNanos (time : DateTime) : Int := time.nanos % nanosPerSecond

/-- The instant `seconds` after the Unix epoch. -/
def ofTimestamp? (seconds : Int) : Option DateTime := ofNanos? (seconds * nanosPerSecond)

end DateTime

/-- `chrono::Duration`: a signed number of nanoseconds. -/
structure Duration where
  nanos : Int

/-- `Duration::seconds`, which panics above `i64::MAX` milliseconds. -/
def Duration.seconds? (seconds : Int) : Option Duration :=
  if -(9223372036854775807 / 1000) ≤ seconds ∧ seconds ≤ 9223372036854775807 / 1000 then
    some ⟨seconds * nanosPerSecond⟩
  else none

/-- `DateTime<Utc> + Duration`, which panics outside the calendar's range. -/
def DateTime.add? (time : DateTime) (duration : Duration) : Option DateTime :=
  DateTime.ofNanos? (time.nanos + duration.nanos)

end TariVault
