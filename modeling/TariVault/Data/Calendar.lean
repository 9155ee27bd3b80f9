import Mathlib.Data.Int.ConditionallyCompleteOrder
import Mathlib.Tactic.Linarith
import Mathlib.Order.Interval.Set.Monotone
import Mathlib.Order.SuccPred.IntervalSucc

namespace TariVault.Calendar

/-! # The proleptic Gregorian calendar

Days are counted from 1 January of year 0.
-/

def leap (year : Int) : Bool := year % 4 == 0 && (year % 100 != 0 || year % 400 == 0)

def yearLength (year : Int) : Int := if leap year then 366 else 365

/-- The day number of 1 January. The quotients count the leap years since year
0. -/
def yearStart (year : Int) : Int :=
  365 * year + (year + 3) / 4 - (year + 99) / 100 + (year + 399) / 400

theorem yearStart_succ (year : Int) : yearStart (year + 1) = yearStart year + yearLength year := by
  unfold yearStart yearLength leap
  simp only [Bool.and_eq_true, Bool.or_eq_true, beq_iff_eq, bne_iff_ne]
  split <;> omega

theorem yearStart_strictMono : StrictMono yearStart := by
  refine strictMono_int_of_lt_succ fun year => ?_
  rw [yearStart_succ, yearLength]
  split <;> omega

/-- The year a day falls in. Dividing by the mean length of a year is off by at
most one. -/
def yearOf (day : Int) : Int :=
  let guess := 400 * day / 146097
  if day < yearStart guess then guess - 1
  else if yearStart (guess + 1) ≤ day then guess + 1
  else guess

theorem yearStart_yearOf_le (day : Int) : yearStart (yearOf day) ≤ day := by
  unfold yearOf
  dsimp only
  split
  · unfold yearStart at *
    omega
  · split <;> omega

theorem lt_yearStart_yearOf_succ (day : Int) : day < yearStart (yearOf day + 1) := by
  unfold yearOf
  dsimp only
  split
  · rw [Int.sub_add_cancel]
    assumption
  · split
    · unfold yearStart at *
      omega
    · omega

theorem yearOf_mono {day day' : Int} (le : day ≤ day') : yearOf day ≤ yearOf day' := by
  by_contra later
  have next : yearStart (yearOf day' + 1) ≤ yearStart (yearOf day) :=
    yearStart_strictMono.monotone (by omega)
  have := yearStart_yearOf_le day
  have := lt_yearStart_yearOf_succ day'
  omega

def ordinal (day : Int) : Nat := (day - yearStart (yearOf day)).toNat

theorem ordinal_lt (day : Int) : ordinal day < if leap (yearOf day) then 366 else 365 := by
  have lower := yearStart_yearOf_le day
  have upper := lt_yearStart_yearOf_succ day
  rw [yearStart_succ, yearLength] at upper
  unfold ordinal
  split at upper <;> simp_all <;> omega

theorem ordinal_lt_of_lt {day day' : Int} (lt : day < day') (sameYear : yearOf day = yearOf day') :
    ordinal day < ordinal day' := by
  have := yearStart_yearOf_le day
  unfold ordinal
  rw [← sameYear]
  omega

def monthStart (leap : Bool) (month : Nat) : Nat :=
  [0, 31, 59, 90, 120, 151, 181, 212, 243, 273, 304, 334].getD month 365 +
    if leap && 2 ≤ month then 1 else 0

/-- The month of a day of the year, both counted from zero. -/
def monthOf (leap : Bool) (ordinal : Nat) : Nat :=
  ((List.range 12).filter fun month => monthStart leap month ≤ ordinal).length - 1

def monthDay (leap : Bool) (ordinal : Nat) : Nat :=
  ordinal - monthStart leap (monthOf leap ordinal)

/-- Month and day, counted from one as they are written. -/
structure Date where
  year : Int
  month : Nat
  day : Nat
deriving DecidableEq, Repr

def date (day : Int) : Date where
  year := yearOf day
  month := monthOf (leap (yearOf day)) (ordinal day) + 1
  day := monthDay (leap (yearOf day)) (ordinal day) + 1

/-- From one day of the year to the next, either the day of the month grows or
the month does. -/
private theorem monthDay_step : ∀ leap : Bool, ∀ ordinal < 366,
    monthOf leap ordinal * 100 + monthDay leap ordinal <
      monthOf leap (ordinal + 1) * 100 + monthDay leap (ordinal + 1) := by
  decide +kernel

private theorem monthDay_bound : ∀ leap : Bool, ∀ ordinal < if leap then 366 else 365,
    monthOf leap ordinal < 12 ∧ monthDay leap ordinal < 31 := by
  decide +kernel

private theorem monthStart_monthOf_le : ∀ leap : Bool, ∀ ordinal < 366,
    monthStart leap (monthOf leap ordinal) ≤ ordinal := by
  decide +kernel

theorem monthDay_lt (leap : Bool) {first second : Nat} (lt : first < second)
    (bound : second ≤ 366) :
    monthOf leap first * 100 + monthDay leap first <
      monthOf leap second * 100 + monthDay leap second := by
  induction second with
  | zero => omega
  | succ second ih =>
      have next := monthDay_step leap second (by omega)
      rcases Nat.lt_succ_iff_lt_or_eq.mp lt with before | rfl
      · exact (ih before (by omega)).trans next
      · exact next

theorem date_bounds (day : Int) :
    1 ≤ (date day).month ∧ (date day).month ≤ 12 ∧ 1 ≤ (date day).day ∧ (date day).day ≤ 31 := by
  have bounds := monthDay_bound (leap (yearOf day)) (ordinal day) (ordinal_lt day)
  simp only [date]
  omega

def dayOf (date : Date) : Int :=
  yearStart date.year + (monthStart (leap date.year) (date.month - 1) + (date.day - 1))

theorem dayOf_date (day : Int) : dayOf (date day) = day := by
  have starts := yearStart_yearOf_le day
  have bound := ordinal_lt day
  have month := monthStart_monthOf_le (leap (yearOf day)) (ordinal day) (by split at bound <;> omega)
  have position : (ordinal day : Int) = day - yearStart (yearOf day) := by
    unfold ordinal
    omega
  simp only [dayOf, date, monthDay, Nat.add_sub_cancel]
  omega

theorem date_lt {day day' : Int} (lt : day < day') :
    (date day).year < (date day').year ∨
      (date day).year = (date day').year ∧
        ((date day).month < (date day').month ∨
          (date day).month = (date day').month ∧ (date day).day < (date day').day) := by
  rcases Int.lt_or_eq_of_le (yearOf_mono lt.le) with before | sameYear
  · exact .inl before
  · refine .inr ⟨sameYear, ?_⟩
    have last : ordinal day' ≤ 366 := by
      have := ordinal_lt day'
      split at this <;> omega
    have grows := monthDay_lt (leap (yearOf day)) (ordinal_lt_of_lt lt sameYear) last
    have bounds := monthDay_bound (leap (yearOf day)) (ordinal day) (ordinal_lt day)
    have bounds' := monthDay_bound (leap (yearOf day')) (ordinal day') (ordinal_lt day')
    simp only [date]
    rw [← sameYear] at bounds' ⊢
    omega

example : date (yearStart 1970) = ⟨1970, 1, 1⟩ := by decide
example : date (yearStart 2024 + 59) = ⟨2024, 2, 29⟩ := by decide

end TariVault.Calendar
