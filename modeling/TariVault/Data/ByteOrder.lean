import Mathlib.Data.String.Basic
import TariVault.Data.FixedBytes

namespace TariVault

/-! # Texts compared by their bytes

A database compares texts byte by byte. On ASCII texts that is the order of their
characters.
-/

def utf8 (text : String) : Bytes := text.toList.flatMap String.utf8EncodeChar

theorem utf8_append (left right : String) : utf8 (left ++ right) = utf8 left ++ utf8 right := by
  rw [utf8, String.toList_append, List.flatMap_append]
  rfl

theorem utf8_injective : Function.Injective utf8 := by
  intro left right same
  have encoded : left.toList.utf8Encode = right.toList.utf8Encode := congrArg List.toByteArray same
  rw [String.utf8Encode_toList, String.utf8Encode_toList] at encoded
  exact String.toByteArray_inj.mp encoded

def Ascii (text : List Char) : Prop := ∀ c ∈ text, c.toNat < 128

theorem Ascii.append {left right : List Char} (front : Ascii left) (back : Ascii right) :
    Ascii (left ++ right) := fun c member =>
  (List.mem_append.mp member).elim (front c) (back c)

theorem Ascii.cons {c : Char} {text : List Char} (first : c.toNat < 128) (rest : Ascii text) :
    Ascii (c :: text) := fun other member =>
  (List.mem_cons.mp member).elim (fun same => same ▸ first) (rest other)

theorem Ascii.nil : Ascii [] := nofun

theorem utf8EncodeChar_ascii {c : Char} (ascii : c.toNat < 128) :
    String.utf8EncodeChar c = [c.toUInt8] := by
  refine String.utf8EncodeChar_eq_singleton ?_
  have small : c.val ≤ 127 := by
    rw [UInt32.le_iff_toNat_le]
    exact Nat.lt_succ_iff.mp ascii
  simp [Char.utf8Size, small]

theorem utf8_ascii {text : String} (ascii : Ascii text.toList) :
    utf8 text = text.toList.map Char.toUInt8 := by
  rw [utf8, List.map_eq_flatMap]
  exact List.flatMap_congr fun c member => utf8EncodeChar_ascii (ascii c member)

theorem toNat_toUInt8 {c : Char} (ascii : c.toNat < 128) : c.toUInt8.toNat = c.toNat := by
  have whole : c.toUInt8.toNat = c.toNat % 256 := rfl
  omega

def ofAscii (bytes : Bytes) : String := String.ofList (bytes.map fun byte => Char.ofNat byte.toNat)

theorem utf8_ofAscii {bytes : Bytes} (ascii : ∀ byte ∈ bytes, byte < 128) : utf8 (ofAscii bytes) = bytes := by
  have code : ∀ n < 128, (Char.ofNat n).toNat = n := by decide
  have read (byte : UInt8) (member : byte ∈ bytes) : (Char.ofNat byte.toNat).toNat = byte.toNat :=
    code _ (UInt8.lt_iff_toNat_lt.mp (ascii byte member))
  have asciiText : Ascii (ofAscii bytes).toList := by
    intro c member
    rw [ofAscii, String.toList_ofList] at member
    obtain ⟨byte, listed, rfl⟩ := List.mem_map.mp member
    rw [read byte listed]
    exact UInt8.lt_iff_toNat_lt.mp (ascii byte listed)
  rw [utf8_ascii asciiText, ofAscii, String.toList_ofList, List.map_map]
  refine (List.map_congr_left fun byte member => ?_).trans (List.map_id bytes)
  rw [Function.comp_apply, id, ← UInt8.toNat_inj, toNat_toUInt8, read byte member]
  rw [read byte member]
  exact UInt8.lt_iff_toNat_lt.mp (ascii byte member)

theorem toUInt8_lt_iff {left right : Char} (asciiLeft : left.toNat < 128)
    (asciiRight : right.toNat < 128) : left.toUInt8 < right.toUInt8 ↔ left < right := by
  rw [UInt8.lt_iff_toNat_lt, toNat_toUInt8 asciiLeft, toNat_toUInt8 asciiRight]
  exact Iff.rfl

theorem toUInt8_inj {left right : Char} (asciiLeft : left.toNat < 128) (asciiRight : right.toNat < 128)
    (same : left.toUInt8 = right.toUInt8) : left = right := by
  have sameNat : left.toNat = right.toNat := by
    rw [← toNat_toUInt8 asciiLeft, same, toNat_toUInt8 asciiRight]
  rw [← Char.ofNat_toNat left, sameNat, Char.ofNat_toNat]

theorem map_lt_map_iff {α β : Type} [LinearOrder α] [LT β] {f : α → β} {left right : List α}
    (monotone : ∀ a ∈ left, ∀ b ∈ right, f a < f b ↔ a < b)
    (injective : ∀ a ∈ left, ∀ b ∈ right, f a = f b → a = b) :
    left.map f < right.map f ↔ left < right := by
  induction left generalizing right with
  | nil => cases right <;> simp
  | cons a left ih =>
      cases right with
      | nil => simp
      | cons b right =>
          have rest := ih
            (fun a' member b' member' =>
              monotone a' (List.mem_cons_of_mem _ member) b' (List.mem_cons_of_mem b member'))
            (fun a' member b' member' =>
              injective a' (List.mem_cons_of_mem _ member) b' (List.mem_cons_of_mem b member'))
          rw [List.map_cons, List.map_cons, List.cons_lt_cons_iff, List.cons_lt_cons_iff, rest,
            monotone a (by simp) b (by simp)]
          constructor
          · intro holds
            rcases holds with lt | ⟨same, lt⟩
            · exact .inl lt
            · exact .inr ⟨injective a (by simp) b (by simp) same, lt⟩
          · intro holds
            rcases holds with lt | ⟨rfl, lt⟩
            · exact .inl lt
            · exact .inr ⟨rfl, lt⟩

theorem utf8_lt_iff {left right : String} (asciiLeft : Ascii left.toList)
    (asciiRight : Ascii right.toList) : utf8 left < utf8 right ↔ left < right := by
  rw [utf8_ascii asciiLeft, utf8_ascii asciiRight, String.lt_iff]
  exact map_lt_map_iff
    (fun a member b member' => toUInt8_lt_iff (asciiLeft a member) (asciiRight b member'))
    (fun a member b member' => toUInt8_inj (asciiLeft a member) (asciiRight b member'))

theorem utf8_le_iff {left right : String} (asciiLeft : Ascii left.toList)
    (asciiRight : Ascii right.toList) : utf8 left ≤ utf8 right ↔ left ≤ right := by
  rw [← List.not_lt, utf8_lt_iff asciiRight asciiLeft, not_lt]

end TariVault
