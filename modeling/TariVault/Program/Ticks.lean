import Mathlib.Algebra.Order.Ring.Nat

namespace TariVault

/-! # Timers that skip the ticks they missed

A timer is due at its start and then once each period. Fired late, it waits for a later
multiple of the period, so that the missed ticks are not made up for. Instants and
periods are counted in the same unit.
-/

/-- `next period deadline now` is what a timer waits for that was due at `deadline` and has
fired at `now`. Up to `tolerance` a delay does not count as a missed tick. -/
structure Skips (tolerance : Nat) (next : Nat → Nat → Nat → Nat) : Prop where
  multiple : ∀ {period deadline now}, 0 < period → deadline ≤ now →
    ∃ ticks, 0 < ticks ∧ next period deadline now = deadline + ticks * period
  caughtUp : ∀ {period deadline now}, tolerance ≤ period → deadline ≤ now → now ≤ next period deadline now

/-- The timer has fired at these instants, the latest first, and is due at `deadline`. -/
inductive Fired (tolerance period start : Nat) : List Nat → Nat → Prop where
  | start : Fired tolerance period start [] start
  | tick {fired deadline now ticks} (before : Fired tolerance period start fired deadline) (due : deadline ≤ now)
      (positive : 0 < ticks) (caughtUp : tolerance ≤ period → now ≤ deadline + ticks * period) :
      Fired tolerance period start (now :: fired) (deadline + ticks * period)

variable {tolerance period start deadline now : Nat} {fired : List Nat} {next : Nat → Nat → Nat → Nat}

theorem Fired.fire (before : Fired tolerance period start fired deadline) (skips : Skips tolerance next)
    (positive : 0 < period) (due : deadline ≤ now) :
    Fired tolerance period start (now :: fired) (next period deadline now) := by
  obtain ⟨ticks, some, same⟩ := skips.multiple positive due
  have caughtUp : tolerance ≤ period → now ≤ next period deadline now :=
    fun enough => skips.caughtUp enough due
  rw [same] at caughtUp ⊢
  exact .tick before due some caughtUp

theorem Fired.before {latest : Nat} (fires : Fired tolerance period start (latest :: fired) deadline) :
    ∃ due, due ≤ latest ∧ Fired tolerance period start fired due := by
  cases fires with
  | tick before due positive caughtUp => exact ⟨_, due, before⟩

theorem Fired.earlier {later earlier : List Nat} (fires : Fired tolerance period start (later ++ earlier) deadline) :
    ∃ due, Fired tolerance period start earlier due := by
  induction later generalizing deadline with
  | nil => exact ⟨_, fires⟩
  | cons latest later ih =>
      obtain ⟨due, _, before⟩ := fires.before
      exact ih before

/-- Each time it has fired has moved the deadline by a period at least. -/
theorem Fired.deadline_le (fires : Fired tolerance period start fired deadline) :
    start + fired.length * period ≤ deadline := by
  induction fires with
  | start => simp
  | @tick fired deadline now ticks _ due positive _ ih =>
      have once : period ≤ ticks * period := Nat.le_mul_of_pos_left period positive
      rw [List.length_cons, Nat.add_mul, Nat.one_mul]
      omega

/-- It does not fire before its time. -/
theorem Fired.onSchedule {later earlier : List Nat} {latest : Nat}
    (fires : Fired tolerance period start (later ++ latest :: earlier) deadline) :
    start + earlier.length * period ≤ latest := by
  obtain ⟨due, fires⟩ := fires.earlier
  obtain ⟨previous, reached, before⟩ := fires.before
  exact before.deadline_le.trans reached

/-- Having fired late, it does not make up for the ticks it missed. -/
theorem Fired.deadline_spaced (enough : tolerance ≤ period) {between earlier : List Nat} {first : Nat}
    (fires : Fired tolerance period start (between ++ first :: earlier) deadline) :
    first + between.length * period ≤ deadline := by
  induction between generalizing deadline with
  | nil =>
      cases fires with
      | tick before due positive caughtUp => simpa using caughtUp enough
  | cons latest between ih =>
      cases fires with
      | @tick _ previous _ ticks before due positive caughtUp =>
          have once : period ≤ ticks * period := Nat.le_mul_of_pos_left period positive
          have spaced := ih before
          rw [List.length_cons, Nat.add_mul, Nat.one_mul]
          omega

theorem Fired.spaced (enough : tolerance ≤ period) {later between earlier : List Nat} {first last : Nat}
    (fires : Fired tolerance period start (later ++ last :: (between ++ first :: earlier)) deadline) :
    first + between.length * period ≤ last := by
  obtain ⟨due, fires⟩ := fires.earlier
  obtain ⟨previous, reached, before⟩ := fires.before
  exact (before.deadline_spaced enough).trans reached

end TariVault
