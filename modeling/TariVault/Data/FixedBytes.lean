import Std.Data.ExtTreeMap

namespace TariVault

abbrev Bytes := List UInt8

/-- A byte array of length `n`, the source's `[u8; N]`. -/
structure FixedBytes (n : Nat) where
  bytes : Bytes
  length_eq : bytes.length = n
deriving DecidableEq

namespace FixedBytes

variable {n m : Nat}

@[ext] theorem ext {left right : FixedBytes n} (same : left.bytes = right.bytes) :
    left = right := by
  cases left
  cases right
  simpa using same

/-- `copy_from_slice` of a slice that has the right length. -/
def ofBytes? (n : Nat) (bytes : Bytes) : Option (FixedBytes n) :=
  if length_eq : bytes.length = n then some ⟨bytes, length_eq⟩ else none

@[simp] theorem ofBytes?_bytes (array : FixedBytes n) : ofBytes? n array.bytes = some array := by
  simp [ofBytes?, array.length_eq]

theorem ofBytes?_eq_some {bytes : Bytes} {array : FixedBytes n}
    (made : ofBytes? n bytes = some array) : array.bytes = bytes := by
  unfold ofBytes? at made
  split at made
  · cases made
    rfl
  · contradiction

def replicate (n : Nat) (byte : UInt8) : FixedBytes n := ⟨List.replicate n byte, List.length_replicate ..⟩

/-! Arrays are ordered like their bytes, so that they can key a map. -/

instance : Ord (FixedBytes n) := ⟨compareOn FixedBytes.bytes⟩

instance : Std.TransOrd (FixedBytes n) :=
  inferInstanceAs (Std.TransCmp (compareOn (FixedBytes.bytes (n := n))))

instance : Std.LawfulEqOrd (FixedBytes n) where
  compare_self {bytes} := @Std.ReflCmp.compare_self Bytes compare _ bytes.bytes
  eq_of_compare same := ext (Std.LawfulEqOrd.eq_of_compare same)

end FixedBytes

end TariVault
