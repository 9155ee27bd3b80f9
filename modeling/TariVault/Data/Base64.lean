import Mathlib.Data.List.Nodup
import Mathlib.Data.Fintype.Basic
import Mathlib.Data.Set.List
import Mathlib.Tactic.DeriveFintype
import TariVault.Data.FixedBytes

namespace TariVault.Base64

/-! # Base64

The encoding of RFC 4648 over an arbitrary alphabet of 64 characters, with the
canonical decoder: spare trailing bits must be zero, and padding is either
forbidden or exactly the required amount.
-/

structure Alphabet where
  symbols : List Char
  length_eq : symbols.length = 64
  nodup : symbols.Nodup

abbrev Sextet := Fin 64

namespace Alphabet

def char (alphabet : Alphabet) (sextet : Sextet) : Char :=
  alphabet.symbols.get (sextet.cast alphabet.length_eq.symm)

def value (alphabet : Alphabet) (symbol : Char) : Option Sextet :=
  (List.finRange 64).find? fun sextet => alphabet.char sextet == symbol

theorem char_injective (alphabet : Alphabet) : Function.Injective alphabet.char := by
  intro left right same
  have places := (List.nodup_iff_injective_get.mp alphabet.nodup) same
  simpa using places

theorem char_of_value {alphabet : Alphabet} {symbol : Char} {sextet : Sextet}
    (found : alphabet.value symbol = some sextet) : alphabet.char sextet = symbol :=
  beq_iff_eq.mp (List.find?_some (p := fun sextet => alphabet.char sextet == symbol) found)

@[simp] theorem value_char (alphabet : Alphabet) (sextet : Sextet) :
    alphabet.value (alphabet.char sextet) = some sextet := by
  cases found : alphabet.value (alphabet.char sextet) with
  | none =>
      have absent := List.find?_eq_none.mp found sextet (List.mem_finRange sextet)
      simp at absent
  | some other => rw [alphabet.char_injective (char_of_value found)]

theorem char_mem (alphabet : Alphabet) (sextet : Sextet) : alphabet.char sextet ∈ alphabet.symbols :=
  List.get_mem ..

theorem exists_char {alphabet : Alphabet} {symbol : Char} (member : symbol ∈ alphabet.symbols) :
    ∃ sextet, alphabet.char sextet = symbol := by
  obtain ⟨place, same⟩ := List.mem_iff_get.mp member
  exact ⟨place.cast alphabet.length_eq, same⟩

end Alphabet

private abbrev byte (value : Nat) : UInt8 := UInt8.ofNat value

private abbrev sextet (value : Nat) : Sextet := Fin.ofNat 64 value

def toSextets : Bytes → List Sextet
  | [] => []
  | [a] => [sextet (a.toNat / 4), sextet (a.toNat % 4 * 16)]
  | [a, b] =>
      [sextet (a.toNat / 4), sextet (a.toNat % 4 * 16 + b.toNat / 16), sextet (b.toNat % 16 * 4)]
  | a :: b :: c :: rest =>
      sextet (a.toNat / 4) :: sextet (a.toNat % 4 * 16 + b.toNat / 16) ::
        sextet (b.toNat % 16 * 4 + c.toNat / 64) :: sextet (c.toNat % 64) :: toSextets rest

/-- A final group of two or three sextets carries four or two spare bits, which
must be zero. A single sextet carries no byte. -/
def fromSextets : List Sextet → Option Bytes
  | [] => some []
  | [_] => none
  | [p, q] => if q.val % 16 = 0 then some [byte (p.val * 4 + q.val / 16)] else none
  | [p, q, r] =>
      if r.val % 4 = 0 then
        some [byte (p.val * 4 + q.val / 16), byte (q.val % 16 * 16 + r.val / 4)]
      else none
  | p :: q :: r :: s :: rest =>
      (fromSextets rest).map fun bytes =>
        byte (p.val * 4 + q.val / 16) :: byte (q.val % 16 * 16 + r.val / 4) ::
          byte (r.val % 4 * 64 + s.val) :: bytes

private theorem byte_of_value {value : Nat} {a : UInt8} (same : value = a.toNat) :
    byte value = a := by
  rw [same]
  exact UInt8.ofNat_toNat

private theorem sextet_of_value {value : Nat} {p : Sextet} (same : value = p.val) :
    sextet value = p := by
  apply Fin.ext
  simp [sextet, same]

theorem fromSextets_toSextets (bytes : Bytes) : fromSextets (toSextets bytes) = some bytes := by
  fun_induction toSextets bytes with
  | case1 => rfl
  | case2 a =>
      have ha := a.toNat_lt
      simp only [fromSextets, sextet, Fin.val_ofNat]
      rw [if_pos (by omega), byte_of_value (a := a) (by omega)]
  | case3 a b =>
      have ha := a.toNat_lt
      have hb := b.toNat_lt
      simp only [fromSextets, sextet, Fin.val_ofNat]
      rw [if_pos (by omega), byte_of_value (a := a) (by omega), byte_of_value (a := b) (by omega)]
  | case4 a b c rest ih =>
      have ha := a.toNat_lt
      have hb := b.toNat_lt
      have hc := c.toNat_lt
      simp only [fromSextets, sextet, Fin.val_ofNat, ih, Option.map_some]
      rw [byte_of_value (a := a) (by omega), byte_of_value (a := b) (by omega),
        byte_of_value (a := c) (by omega)]

private theorem toNat_byte {value : Nat} (small : value < 256) : (byte value).toNat = value := by
  simp [byte, UInt8.toNat_ofNat', Nat.mod_eq_of_lt small]

/-- The decoder accepts only what the encoder writes. -/
theorem toSextets_fromSextets {sextets : List Sextet} {bytes : Bytes}
    (decoded : fromSextets sextets = some bytes) : toSextets bytes = sextets := by
  fun_induction fromSextets sextets generalizing bytes with
  | case1 =>
      cases decoded
      rfl
  | case2 => contradiction
  | case3 p q spare =>
      cases decoded
      have hp := p.isLt
      have hq := q.isLt
      simp only [toSextets]
      rw [toNat_byte (by omega), sextet_of_value (p := p) (by omega),
        sextet_of_value (p := q) (by omega)]
  | case4 => contradiction
  | case5 p q r spare =>
      cases decoded
      have hp := p.isLt
      have hq := q.isLt
      have hr := r.isLt
      simp only [toSextets]
      rw [toNat_byte (by omega), toNat_byte (by omega), sextet_of_value (p := p) (by omega),
        sextet_of_value (p := q) (by omega), sextet_of_value (p := r) (by omega)]
  | case6 => contradiction
  | case7 p q r s rest ih =>
      cases tail : fromSextets rest with
      | none => simp [tail] at decoded
      | some bytes' =>
          simp only [tail, Option.map_some, Option.some.injEq] at decoded
          subst decoded
          have hp := p.isLt
          have hq := q.isLt
          have hr := r.isLt
          have hs := s.isLt
          simp only [toSextets]
          rw [toNat_byte (by omega), toNat_byte (by omega), toNat_byte (by omega),
            sextet_of_value (p := p) (by omega), sextet_of_value (p := q) (by omega),
            sextet_of_value (p := r) (by omega), sextet_of_value (p := s) (by omega), ih tail]

theorem length_toSextets (bytes : Bytes) : (toSextets bytes).length = (4 * bytes.length + 2) / 3 := by
  fun_induction toSextets bytes with
  | case1 => rfl
  | case2 a => simp
  | case3 a b => simp
  | case4 a b c rest ih =>
      simp only [List.length_cons, ih]
      omega

theorem isSome_fromSextets {sextets : List Sextet} (whole : sextets.length % 4 = 0) :
    (fromSextets sextets).isSome := by
  fun_induction fromSextets sextets with
  | case1 => rfl
  | case2 => simp at whole
  | case3 => simp at whole
  | case4 => simp at whole
  | case5 => simp at whole
  | case6 => simp at whole
  | case7 p q r s rest ih =>
      rw [Option.isSome_map]
      apply ih
      simp only [List.length_cons] at whole
      omega

variable (alphabet : Alphabet)

def encode (bytes : Bytes) : List Char := (toSextets bytes).map alphabet.char

def decode (text : List Char) : Option Bytes := do
  let sextets ← text.mapM alphabet.value
  fromSextets sextets

theorem mapM_value_map_char (sextets : List Sextet) :
    (sextets.map alphabet.char).mapM alphabet.value = some sextets := by
  induction sextets with
  | nil => rfl
  | cons first rest ih => simp [List.mapM_cons, ih]

theorem map_char_of_mapM_value {text : List Char} {sextets : List Sextet}
    (read : text.mapM alphabet.value = some sextets) : sextets.map alphabet.char = text := by
  induction text generalizing sextets with
  | nil =>
      cases read
      rfl
  | cons symbol rest ih =>
      simp only [List.mapM_cons, Option.bind_eq_bind, Option.bind_eq_some_iff, Option.pure_def,
        Option.some.injEq] at read
      obtain ⟨first, found, sextets', tail, rfl⟩ := read
      simp [Alphabet.char_of_value found, ih tail]

@[simp] theorem decode_encode (bytes : Bytes) :
    decode alphabet (encode alphabet bytes) = some bytes := by
  rw [decode, encode, mapM_value_map_char]
  exact fromSextets_toSextets bytes

theorem encode_decode {text : List Char} {bytes : Bytes}
    (decoded : decode alphabet text = some bytes) : encode alphabet bytes = text := by
  simp only [decode, Option.bind_eq_bind, Option.bind_eq_some_iff] at decoded
  obtain ⟨sextets, read, decoded⟩ := decoded
  rw [encode, toSextets_fromSextets decoded, map_char_of_mapM_value alphabet read]

theorem length_encode (bytes : Bytes) : (encode alphabet bytes).length = (4 * bytes.length + 2) / 3 := by
  rw [encode, List.length_map, length_toSextets]

theorem mem_symbols_of_mem_encode {bytes : Bytes} {symbol : Char} (member : symbol ∈ encode alphabet bytes) :
    symbol ∈ alphabet.symbols := by
  obtain ⟨sextet, _, rfl⟩ := List.mem_map.mp member
  exact alphabet.char_mem sextet

theorem isSome_decode {text : List Char} (whole : text.length % 4 = 0)
    (known : ∀ symbol ∈ text, symbol ∈ alphabet.symbols) : (decode alphabet text).isSome := by
  have spelled : text ∈ Set.range (List.map alphabet.char) := by
    rw [Set.range_list_map]
    exact fun symbol member => Alphabet.exists_char (known symbol member)
  obtain ⟨sextets, rfl⟩ := spelled
  rw [decode, mapM_value_map_char]
  exact isSome_fromSextets (by rwa [List.length_map] at whole)

def pad : Char := '='

def padding (length : Nat) : List Char := List.replicate ((4 - length % 4) % 4) pad

def encodePadded (bytes : Bytes) : List Char :=
  encode alphabet bytes ++ padding (encode alphabet bytes).length

def decodePadded (text : List Char) : Option Bytes :=
  let body := text.takeWhile (· != pad)
  if text.drop body.length = padding body.length then decode alphabet body else none

theorem pad_not_mem_encode (unused : pad ∉ alphabet.symbols) (bytes : Bytes) :
    ∀ symbol ∈ encode alphabet bytes, (symbol != pad) = true := by
  intro symbol member
  rw [bne_iff_ne]
  intro same
  subst same
  exact unused (mem_symbols_of_mem_encode alphabet member)

theorem decodePadded_encodePadded (unused : pad ∉ alphabet.symbols) (bytes : Bytes) :
    decodePadded alphabet (encodePadded alphabet bytes) = some bytes := by
  have body : (encodePadded alphabet bytes).takeWhile (· != pad) = encode alphabet bytes := by
    rw [encodePadded, List.takeWhile_append_of_pos (pad_not_mem_encode alphabet unused bytes)]
    simp [padding]
  simp only [decodePadded, body]
  rw [if_pos (by simp [encodePadded]), decode_encode]

def standard : Alphabet where
  symbols := "ABCDEFGHIJKLMNOPQRSTUVWXYZabcdefghijklmnopqrstuvwxyz0123456789+/".toList
  length_eq := by decide
  nodup := by decide

def urlSafe : Alphabet where
  symbols := "ABCDEFGHIJKLMNOPQRSTUVWXYZabcdefghijklmnopqrstuvwxyz0123456789-_".toList
  length_eq := by decide
  nodup := by decide

theorem pad_not_mem_standard : pad ∉ standard.symbols := by decide

example : encodePadded standard [0x66, 0x6f, 0x6f, 0x62] = "Zm9vYg==".toList := by decide

end TariVault.Base64
