import Mathlib.Data.List.Nodup
import Std.Data.ExtTreeMap

namespace TariVault

/-! # Maps kept in another representation

A backend keeps the same map under other keys and with other values.
-/

open Std

variable {α β V W : Type} [Ord α] [TransOrd α] [Ord β] [TransOrd β]

/-- `copy` stores under `key a` the image of what `original` stores under `a`, and
nothing else. -/
structure Mirrors (key : α → β) (value : V → W) (copy : ExtTreeMap β W)
    (original : ExtTreeMap α V) : Prop where
  lookup : ∀ a, copy[key a]? = original[a]?.map value
  onlyKeys : ∀ b ∈ copy, ∃ a, key a = b

namespace Mirrors

variable {key : α → β} {value : V → W} {copy : ExtTreeMap β W} {original : ExtTreeMap α V}

theorem empty : Mirrors key value (∅ : ExtTreeMap β W) ∅ where
  lookup := by simp
  onlyKeys := by simp

theorem mem_iff (mirrors : Mirrors key value copy original) {a : α} :
    key a ∈ copy ↔ a ∈ original := by
  rw [ExtTreeMap.mem_iff_isSome_getElem?, ExtTreeMap.mem_iff_isSome_getElem?, mirrors.lookup,
    Option.isSome_map]

theorem contains_eq (mirrors : Mirrors key value copy original) (a : α) :
    copy.contains (key a) = original.contains a := by
  rw [Bool.eq_iff_iff, ExtTreeMap.contains_iff_mem, ExtTreeMap.contains_iff_mem]
  exact mirrors.mem_iff

variable [LawfulEqOrd α] [LawfulEqOrd β]

theorem insert (injective : Function.Injective key) (mirrors : Mirrors key value copy original)
    (a : α) (stored : V) :
    Mirrors key value (copy.insert (key a) (value stored)) (original.insert a stored) where
  lookup := by
    intro other
    rw [ExtTreeMap.getElem?_insert, ExtTreeMap.getElem?_insert]
    by_cases same : a = other
    · simp [same]
    · rw [if_neg, if_neg]
      · exact mirrors.lookup other
      · rwa [Std.compare_eq_iff_eq]
      · rw [Std.compare_eq_iff_eq]
        exact fun sameKey => same (injective sameKey)
  onlyKeys := by
    intro b member
    rcases ExtTreeMap.mem_insert.mp member with same | old
    · exact ⟨a, Std.compare_eq_iff_eq.mp same⟩
    · exact mirrors.onlyKeys b old

theorem erase (injective : Function.Injective key) (mirrors : Mirrors key value copy original)
    (a : α) : Mirrors key value (copy.erase (key a)) (original.erase a) where
  lookup := by
    intro other
    rw [ExtTreeMap.getElem?_erase, ExtTreeMap.getElem?_erase]
    by_cases same : a = other
    · simp [same]
    · rw [if_neg, if_neg]
      · exact mirrors.lookup other
      · rwa [Std.compare_eq_iff_eq]
      · rw [Std.compare_eq_iff_eq]
        exact fun sameKey => same (injective sameKey)
  onlyKeys := fun b member => mirrors.onlyKeys b (ExtTreeMap.mem_erase.mp member).2

theorem filter (mirrors : Mirrors key value copy original) {keepCopy : β → W → Bool}
    {keep : α → V → Bool}
    (agree : ∀ a stored, original[a]? = some stored → keepCopy (key a) (value stored) = keep a stored) :
    Mirrors key value (copy.filter keepCopy) (original.filter keep) where
  lookup := by
    intro a
    rw [ExtTreeMap.getElem?_filter', ExtTreeMap.getElem?_filter', mirrors.lookup]
    cases found : original[a]? with
    | none => rfl
    | some stored =>
        simp only [Option.map_some, Option.filter_some, agree a stored found]
        split <;> rfl
  onlyKeys := by
    intro b member
    exact mirrors.onlyKeys b (ExtTreeMap.mem_of_mem_filter member)

/-- The two maps have as many entries: the keys of the copy are the images of the
keys of the original. -/
theorem size_eq (injective : Function.Injective key) (mirrors : Mirrors key value copy original) :
    copy.size = original.size := by
  have sameKeys : copy.keys.Perm (original.keys.map key) := by
    refine (List.perm_ext_iff_of_nodup ExtTreeMap.nodup_keys
      (ExtTreeMap.nodup_keys.map injective)).mpr fun b => ?_
    rw [ExtTreeMap.mem_keys, List.mem_map]
    constructor
    · intro member
      obtain ⟨a, rfl⟩ := mirrors.onlyKeys b member
      exact ⟨a, ExtTreeMap.mem_keys.mpr (mirrors.mem_iff.mp member), rfl⟩
    · intro holds
      obtain ⟨a, member, rfl⟩ := holds
      exact mirrors.mem_iff.mpr (ExtTreeMap.mem_keys.mp member)
  rw [← ExtTreeMap.length_keys, ← ExtTreeMap.length_keys, sameKeys.length_eq, List.length_map]

end Mirrors

end TariVault
