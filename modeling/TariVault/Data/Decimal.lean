import Mathlib.Data.String.Basic
import Mathlib.Tactic.Linarith

namespace TariVault.Decimal

/-! # Decimal numbers of a fixed width

Zero-padded numbers: reading them back, and why comparing them as text compares
them as numbers.
-/

def digit (value : Nat) : Char := Char.ofNat (48 + value)

def isDigit (c : Char) : Bool := '0' ≤ c ∧ c ≤ '9'

def digitValue? (c : Char) : Option Nat := if isDigit c then some (c.toNat - 48) else none

theorem digitValue?_digit : ∀ value < 10, digitValue? (digit value) = some value := by decide

theorem isDigit_digit : ∀ value < 10, isDigit (digit value) = true := by decide

theorem digit_lt : ∀ left < 10, ∀ right < 10, left < right → digit left < digit right := by decide

/-- The last `width` decimal digits of a number. -/
def fixed : Nat → Nat → List Char
  | 0, _ => []
  | width + 1, number => fixed width (number / 10) ++ [digit (number % 10)]

@[simp] theorem length_fixed (width number : Nat) : (fixed width number).length = width := by
  induction width generalizing number with
  | zero => rfl
  | succ width ih => rw [fixed, List.length_append, ih, List.length_singleton]

theorem isDigit_of_mem_fixed {width number : Nat} {c : Char} (member : c ∈ fixed width number) :
    isDigit c = true := by
  induction width generalizing number with
  | zero => contradiction
  | succ width ih =>
      rcases List.mem_append.mp member with front | last
      · exact ih front
      · rw [List.mem_singleton] at last
        subst last
        exact isDigit_digit _ (Nat.mod_lt _ (by decide))

def value? (text : List Char) : Option Nat :=
  text.foldlM (fun read c => (digitValue? c).map (read * 10 + ·)) 0

theorem value?_fixed {width number : Nat} (fits : number < 10 ^ width) :
    value? (fixed width number) = some number := by
  induction width generalizing number with
  | zero =>
      have zero : number = 0 := by simpa using fits
      subst zero
      rfl
  | succ width ih =>
      have front : value? (fixed width (number / 10)) = some (number / 10) :=
        ih (by rw [Nat.pow_succ] at fits; omega)
      have last := digitValue?_digit (number % 10) (Nat.mod_lt _ (by decide))
      unfold value? at front ⊢
      rw [fixed, List.foldlM_append, front]
      simp [last]
      omega

theorem fixed_add (front back high low : Nat) (fits : low < 10 ^ back) :
    fixed (front + back) (high * 10 ^ back + low) = fixed front high ++ fixed back low := by
  induction back generalizing low with
  | zero =>
      have zero : low = 0 := by simpa using fits
      simp [zero, fixed]
  | succ back ih =>
      have shift : high * 10 ^ (back + 1) = 10 * (high * 10 ^ back) := by
        rw [Nat.pow_succ]
        ac_rfl
      have quotient : (high * 10 ^ (back + 1) + low) / 10 = high * 10 ^ back + low / 10 := by omega
      have remainder : (high * 10 ^ (back + 1) + low) % 10 = low % 10 := by omega
      rw [← Nat.add_assoc, fixed, quotient, remainder, ih _ (by rw [Nat.pow_succ] at fits; omega), fixed,
        List.append_assoc]

theorem append_lt_append {left right : List Char} (lt : left < right)
    (sameLength : left.length = right.length) (after after' : List Char) :
    left ++ after < right ++ after' := by
  induction left generalizing right with
  | nil =>
      cases right with
      | nil => exact absurd lt (List.lt_irrefl [])
      | cons c right => contradiction
  | cons c left ih =>
      cases right with
      | nil => contradiction
      | cons c' right =>
          rcases List.cons_lt_cons_iff.mp lt with first | ⟨rfl, later⟩
          · exact List.cons_lt_cons_iff.mpr (.inl first)
          · exact List.cons_lt_cons_iff.mpr (.inr ⟨rfl, ih later (Nat.succ.inj sameLength)⟩)

theorem fixed_lt {width left right : Nat} (lt : left < right) (fits : right < 10 ^ width) :
    fixed width left < fixed width right := by
  induction width generalizing left right with
  | zero =>
      have zero : right = 0 := by simpa using fits
      omega
  | succ width ih =>
      have fits' : right / 10 < 10 ^ width := by
        rw [Nat.pow_succ] at fits
        omega
      rcases Nat.lt_or_eq_of_le (Nat.div_le_div_right lt.le : left / 10 ≤ right / 10) with
        front | same
      · exact append_lt_append (ih front fits') (by simp) _ _
      · rw [fixed, fixed, same]
        refine List.append_left_lt (List.cons_lt_cons_iff.mpr (.inl ?_))
        exact digit_lt _ (Nat.mod_lt _ (by decide)) _ (Nat.mod_lt _ (by decide)) (by omega)

end TariVault.Decimal
