import Mathlib.Data.Fintype.Basic
import TariVault.Data.FixedBytes

namespace TariVault.Uuid

/-! # The texts of a UUID -/

def hexDigit (value : Fin 16) : Char :=
  ['0', '1', '2', '3', '4', '5', '6', '7', '8', '9', 'a', 'b', 'c', 'd', 'e', 'f'].get value

theorem hexDigit_injective : Function.Injective hexDigit := by decide

theorem hexDigit_ne_hyphen (value : Fin 16) : hexDigit value ≠ '-' := by
  revert value
  decide

def hexByte (byte : UInt8) : List Char :=
  [hexDigit (Fin.ofNat 16 (byte.toNat / 16)), hexDigit (Fin.ofNat 16 (byte.toNat % 16))]

def hex (bytes : Bytes) : List Char := bytes.flatMap hexByte

theorem hexByte_injective : Function.Injective hexByte := by
  intro left right same
  simp only [hexByte, List.cons.injEq, and_true] at same
  have high := congrArg Fin.val (hexDigit_injective same.1)
  have low := congrArg Fin.val (hexDigit_injective same.2)
  have hl := left.toNat_lt
  have hr := right.toNat_lt
  simp only [Fin.val_ofNat] at high low
  exact UInt8.toNat_inj.mp (by omega)

theorem hex_injective : Function.Injective hex := by
  intro left right same
  induction left generalizing right with
  | nil =>
      cases right with
      | nil => rfl
      | cons byte rest => simp [hex, hexByte] at same
  | cons byte rest ih =>
      cases right with
      | nil => simp [hex, hexByte] at same
      | cons byte' rest' =>
          have heads : hexByte byte ++ hex rest = hexByte byte' ++ hex rest' := by
            simpa [hex] using same
          obtain ⟨first, others⟩ := List.append_inj heads rfl
          rw [hexByte_injective first, ih others]

variable (uuid : FixedBytes 16)

/-- `Uuid::from_bytes(bytes).simple()`. -/
def simple : String := String.ofList (hex uuid.bytes)

/-- The groups of 4, 2, 2, 2 and 6 bytes, joined by hyphens. -/
def hyphenatedChars : List Char :=
  hex (uuid.bytes.take 4) ++ '-' :: hex ((uuid.bytes.drop 4).take 2) ++
    '-' :: hex ((uuid.bytes.drop 6).take 2) ++ '-' :: hex ((uuid.bytes.drop 8).take 2) ++
    '-' :: hex (uuid.bytes.drop 10)

/-- `Uuid::from_bytes(bytes).hyphenated()`. -/
def hyphenated : String := String.ofList (hyphenatedChars uuid)

private theorem filter_hex (bytes : Bytes) : (hex bytes).filter (· ≠ '-') = hex bytes := by
  refine List.filter_eq_self.mpr fun symbol member => ?_
  obtain ⟨byte, _, inByte⟩ := List.mem_flatMap.mp member
  simp only [hexByte, List.mem_cons, List.not_mem_nil, or_false] at inByte
  rcases inByte with rfl | rfl <;> simpa using hexDigit_ne_hyphen _

/-- Dropping the hyphens gives back all the digits. -/
private theorem filter_hyphenatedChars :
    (hyphenatedChars uuid).filter (· ≠ '-') = hex uuid.bytes := by
  have groups : uuid.bytes = uuid.bytes.take 4 ++ ((uuid.bytes.drop 4).take 2 ++
      ((uuid.bytes.drop 6).take 2 ++ ((uuid.bytes.drop 8).take 2 ++ uuid.bytes.drop 10))) := by
    have split (n k : Nat) : uuid.bytes.drop n =
        (uuid.bytes.drop n).take k ++ uuid.bytes.drop (n + k) := by
      rw [← List.drop_drop]
      exact (List.take_append_drop k _).symm
    rw [← split 8 2, ← split 6 2, ← split 4 2]
    exact (List.take_append_drop 4 _).symm
  conv_rhs => rw [groups]
  simp only [hyphenatedChars, List.filter_append, List.filter_cons, filter_hex]
  simp [hex]

theorem hyphenated_injective : Function.Injective hyphenated := by
  intro left right same
  have chars : hyphenatedChars left = hyphenatedChars right := String.ofList_injective same
  have digits := congrArg (List.filter (· ≠ '-')) chars
  rw [filter_hyphenatedChars, filter_hyphenatedChars] at digits
  exact FixedBytes.ext (hex_injective digits)

end TariVault.Uuid
