import Mathlib.Data.String.Basic

namespace TariVault.Json

/-! # JSON values

One tree type for whatever the numbers are: the literals of a document, the numbers
of a library, or their meaning. Members of an object stand in a list, in the order
in which they were written, or sorted by key when they come out of a map.
-/

inductive Kind where
  | value
  | items
  | members
deriving DecidableEq

inductive Tree (ν : Type) : Kind → Type where
  | null : Tree ν .value
  | bool (value : Bool) : Tree ν .value
  | number (value : ν) : Tree ν .value
  | text (value : String) : Tree ν .value
  | array (items : Tree ν .items) : Tree ν .value
  | object (members : Tree ν .members) : Tree ν .value
  | noItems : Tree ν .items
  | item (head : Tree ν .value) (rest : Tree ν .items) : Tree ν .items
  | noMembers : Tree ν .members
  | member (key : String) (value : Tree ν .value) (rest : Tree ν .members) : Tree ν .members

namespace Tree

variable {ν μ ρ : Type} {kind : Kind}

def map (f : ν → μ) : {kind : Kind} → Tree ν kind → Tree μ kind
  | _, .null => .null
  | _, .bool value => .bool value
  | _, .number value => .number (f value)
  | _, .text value => .text value
  | _, .array items => .array (items.map f)
  | _, .object members => .object (members.map f)
  | _, .noItems => .noItems
  | _, .item head rest => .item (head.map f) (rest.map f)
  | _, .noMembers => .noMembers
  | _, .member key value rest => .member key (value.map f) (rest.map f)

def mapM (f : ν → Option μ) : {kind : Kind} → Tree ν kind → Option (Tree μ kind)
  | _, .null => some .null
  | _, .bool value => some (.bool value)
  | _, .number value => (f value).map .number
  | _, .text value => some (.text value)
  | _, .array items => (items.mapM f).map .array
  | _, .object members => (members.mapM f).map .object
  | _, .noItems => some .noItems
  | _, .item head rest => do return .item (← head.mapM f) (← rest.mapM f)
  | _, .noMembers => some .noMembers
  | _, .member key value rest => do return .member key (← value.mapM f) (← rest.mapM f)

def numbers : {kind : Kind} → Tree ν kind → List ν
  | _, .number value => [value]
  | _, .array items => items.numbers
  | _, .object members => members.numbers
  | _, .item head rest => head.numbers ++ rest.numbers
  | _, .member _ value rest => value.numbers ++ rest.numbers
  | _, _ => []

def keys : {kind : Kind} → Tree ν kind → List String
  | _, .member key _ rest => key :: rest.keys
  | _, _ => []

def depth : {kind : Kind} → Tree ν kind → Nat
  | _, .array items => items.depth + 1
  | _, .object members => members.depth + 1
  | _, .item head rest => max head.depth rest.depth
  | _, .member _ value rest => max value.depth rest.depth
  | _, _ => 0

/-- How many characters the texts and keys have. -/
def width : {kind : Kind} → Tree ν kind → Nat
  | _, .text value => value.length
  | _, .array items => items.width
  | _, .object members => members.width
  | _, .item head rest => head.width + rest.width
  | _, .member key value rest => key.length + value.width + rest.width
  | _, _ => 0

attribute [local simp] map mapM numbers keys depth width

theorem map_map (f : ν → μ) (g : μ → ρ) (tree : Tree ν kind) :
    (tree.map f).map g = tree.map fun number => g (f number) := by
  induction tree <;> simp_all [map]

@[simp] theorem keys_map (f : ν → μ) (tree : Tree ν kind) : (tree.map f).keys = tree.keys := by
  induction tree <;> simp_all [map, keys]

@[simp] theorem depth_map (f : ν → μ) (tree : Tree ν kind) : (tree.map f).depth = tree.depth := by
  induction tree <;> simp_all [map, depth]

@[simp] theorem width_map (f : ν → μ) (tree : Tree ν kind) : (tree.map f).width = tree.width := by
  induction tree <;> simp_all [map, width]

theorem width_mapM {f : ν → Option μ} {tree : Tree ν kind} {image : Tree μ kind}
    (mapped : tree.mapM f = some image) : image.width = tree.width := by
  induction tree <;> simp_all [mapM, width, Option.bind_eq_some_iff] <;> grind [width]

theorem numbers_map (f : ν → μ) (tree : Tree ν kind) : (tree.map f).numbers = tree.numbers.map f := by
  induction tree <;> simp_all [map, numbers]

theorem map_eq_map_iff {f g : ν → μ} {tree : Tree ν kind} :
    tree.map f = tree.map g ↔ ∀ number ∈ tree.numbers, f number = g number := by
  induction tree <;> simp_all [map, numbers, or_imp, forall_and]

theorem mapM_eq_some_map {f : ν → Option μ} {g : ν → μ} {tree : Tree ν kind}
    (defined : ∀ number ∈ tree.numbers, f number = some (g number)) : tree.mapM f = some (tree.map g) := by
  induction tree <;> simp_all [mapM, map, numbers, or_imp, forall_and]

theorem isSome_of_mapM {f : ν → Option μ} {tree : Tree ν kind} {image : Tree μ kind}
    (mapped : tree.mapM f = some image) : ∀ number ∈ tree.numbers, (f number).isSome := by
  induction tree <;> simp_all [mapM, numbers, or_imp, forall_and, Option.bind_eq_some_iff] <;> grind

/-- A new member of a sorted list, where an old one with its key stays. -/
def insertAbsent : {kind : Kind} → Tree ν kind → String → Tree ν .value → Tree ν kind
  | _, .noMembers, key, value => .member key value .noMembers
  | _, .member other old rest, key, value =>
      if key < other then .member key value (.member other old rest)
      else if key = other then .member other old rest
      else .member other old (rest.insertAbsent key value)
  | _, tree, _, _ => tree

/-- Every object as a map sorted by key. Of two members with one key the later one
counts. -/
def normal : {kind : Kind} → Tree ν kind → Tree ν kind
  | _, .array items => .array items.normal
  | _, .object members => .object members.normal
  | _, .item head rest => .item head.normal rest.normal
  | _, .member key value rest => rest.normal.insertAbsent key value.normal
  | _, tree => tree

def Sorted : {kind : Kind} → Tree ν kind → Prop
  | _, .array items => items.Sorted
  | _, .object members => members.Sorted
  | _, .item head rest => head.Sorted ∧ rest.Sorted
  | _, .member key value rest => (∀ other ∈ rest.keys, key < other) ∧ value.Sorted ∧ rest.Sorted
  | _, _ => True

/-- No object has two members with one key. -/
def DistinctKeys : {kind : Kind} → Tree ν kind → Prop
  | _, .array items => items.DistinctKeys
  | _, .object members => members.DistinctKeys
  | _, .item head rest => head.DistinctKeys ∧ rest.DistinctKeys
  | _, .member key value rest => key ∉ rest.keys ∧ value.DistinctKeys ∧ rest.DistinctKeys
  | _, _ => True

attribute [local simp] insertAbsent normal Sorted DistinctKeys

section Insert

variable {key : String} {value : Tree ν .value}

theorem map_insertAbsent (f : ν → μ) (tree : Tree ν kind) :
    (tree.insertAbsent key value).map f = (tree.map f).insertAbsent key (value.map f) := by
  induction tree with
  | member other old rest _ ih =>
      simp only [insertAbsent, map]
      split
      · rfl
      · split
        · rfl
        · rw [map, ih]
  | _ => rfl

theorem mem_keys_insertAbsent {tree : Tree ν kind} (isMembers : kind = .members) {other : String} :
    other ∈ (tree.insertAbsent key value).keys ↔ other = key ∨ other ∈ tree.keys := by
  induction tree with
  | noMembers => simp [insertAbsent, keys]
  | member first old rest _ ih =>
      simp only [insertAbsent]
      split
      · simp [keys]
      · split
        · rename_i same
          simp [keys, same]
        · simp [keys, ih rfl, or_left_comm]
  | _ => contradiction

theorem depth_insertAbsent (tree : Tree ν kind) :
    (tree.insertAbsent key value).depth ≤ max value.depth tree.depth := by
  induction tree with
  | member other old rest _ ih =>
      simp only [insertAbsent]
      split
      · simp [depth]
      · split
        · simp [depth]
        · simp only [depth] at ih ⊢
          omega
  | _ => simp [insertAbsent, depth]

theorem width_insertAbsent (tree : Tree ν kind) :
    (tree.insertAbsent key value).width ≤ key.length + value.width + tree.width := by
  induction tree with
  | member other old rest _ ih =>
      simp only [insertAbsent]
      split
      · simp [width]
      · split
        · simp [width]
        · simp only [width] at ih ⊢
          omega
  | _ => simp [insertAbsent, width]

theorem width_insertAbsent_new {tree : Tree ν kind} (isMembers : kind = .members) (new : key ∉ tree.keys) :
    (tree.insertAbsent key value).width = key.length + value.width + tree.width := by
  induction tree with
  | noMembers => simp [insertAbsent, width]
  | member other old rest _ ih =>
      simp only [insertAbsent]
      split
      · simp [width]
      · split
        · rename_i same
          exact absurd (same ▸ List.mem_cons_self) new
        · have inserted := ih rfl fun member => new (List.mem_cons_of_mem _ member)
          simp only [width] at inserted ⊢
          omega
  | _ => contradiction

theorem sorted_insertAbsent {tree : Tree ν kind} (sorted : tree.Sorted) (here : value.Sorted) :
    (tree.insertAbsent key value).Sorted := by
  induction tree with
  | noMembers => exact ⟨by simp [keys], here, trivial⟩
  | member other old rest _ ih =>
      obtain ⟨first, oldSorted, restSorted⟩ := sorted
      simp only [insertAbsent]
      split
      · rename_i before
        refine ⟨fun later member => ?_, here, first, oldSorted, restSorted⟩
        rcases List.mem_cons.mp member with rfl | member
        · exact before
        · exact before.trans (first later member)
      · split
        · exact ⟨first, oldSorted, restSorted⟩
        · rename_i notBefore different
          have after : other < key := lt_of_le_of_ne (not_lt.mp notBefore) (Ne.symm different)
          refine ⟨fun later member => ?_, oldSorted, ih restSorted⟩
          rcases (mem_keys_insertAbsent rfl).mp member with rfl | member
          · exact after
          · exact first later member
  | _ => exact sorted

theorem insertAbsent_first {members : Tree ν .members} (first : ∀ other ∈ members.keys, key < other) :
    members.insertAbsent key value = .member key value members := by
  cases members with
  | noMembers => rfl
  | member other old rest => rw [insertAbsent, if_pos (first other List.mem_cons_self)]

theorem mem_numbers_insertAbsent {tree : Tree ν kind} (isMembers : kind = .members)
    (new : key ∉ tree.keys) {number : ν} :
    number ∈ (tree.insertAbsent key value).numbers ↔ number ∈ value.numbers ∨ number ∈ tree.numbers := by
  induction tree with
  | noMembers => simp [insertAbsent, numbers]
  | member other old rest _ ih =>
      simp only [insertAbsent]
      split
      · simp [numbers]
      · split
        · rename_i same
          exact absurd (same ▸ List.mem_cons_self) new
        · have absent : key ∉ rest.keys := fun member => new (List.mem_cons_of_mem _ member)
          simp [numbers, ih rfl absent, or_left_comm]
  | _ => contradiction

end Insert

theorem normal_map (f : ν → μ) (tree : Tree ν kind) : (tree.map f).normal = tree.normal.map f := by
  induction tree with
  | member key value rest valueIH restIH => rw [map, normal, normal, map_insertAbsent, valueIH, restIH]
  | _ => simp_all [map, normal]

theorem depth_normal (tree : Tree ν kind) : tree.normal.depth ≤ tree.depth := by
  induction tree with
  | member key value rest valueIH restIH =>
      have inserted := @depth_insertAbsent ν _ key value.normal rest.normal
      simp only [normal, depth]
      omega
  | _ => simp_all [normal, depth] <;> omega

theorem width_normal_le (tree : Tree ν kind) : tree.normal.width ≤ tree.width := by
  induction tree with
  | member key value rest valueIH restIH =>
      have inserted := @width_insertAbsent ν _ key value.normal rest.normal
      simp only [normal, width]
      omega
  | _ => simp_all [normal, width] <;> omega

theorem sorted_normal (tree : Tree ν kind) : tree.normal.Sorted := by
  induction tree with
  | member key value rest valueIH restIH => exact sorted_insertAbsent restIH valueIH
  | _ => simp_all [normal, Sorted]

theorem normal_of_sorted {tree : Tree ν kind} (sorted : tree.Sorted) : tree.normal = tree := by
  induction tree with
  | member key value rest valueIH restIH =>
      obtain ⟨first, valueSorted, restSorted⟩ := sorted
      rw [normal, valueIH valueSorted, restIH restSorted, insertAbsent_first first]
  | _ => simp_all [normal, Sorted]

theorem Sorted.map {f : ν → μ} {tree : Tree ν kind} (sorted : tree.Sorted) : (tree.map f).Sorted := by
  induction tree <;> simp_all [Tree.map, Sorted]

theorem mem_keys_normal {tree : Tree ν kind} {key : String} : key ∈ tree.normal.keys ↔ key ∈ tree.keys := by
  induction tree with
  | member other value rest _ ih => rw [normal, mem_keys_insertAbsent rfl, ih, keys, List.mem_cons]
  | _ => simp [normal, keys]

/-- Without duplicates sorting loses nothing. -/
theorem mem_numbers_normal {tree : Tree ν kind} (distinct : tree.DistinctKeys) {number : ν} :
    number ∈ tree.normal.numbers ↔ number ∈ tree.numbers := by
  induction tree with
  | member key value rest valueIH restIH =>
      obtain ⟨new, valueDistinct, restDistinct⟩ := distinct
      have absent : key ∉ rest.normal.keys := mt mem_keys_normal.mp new
      rw [normal, mem_numbers_insertAbsent rfl absent, valueIH valueDistinct, restIH restDistinct, numbers,
        List.mem_append]
  | _ => simp_all [normal, numbers, DistinctKeys]

theorem width_normal {tree : Tree ν kind} (distinct : tree.DistinctKeys) : tree.normal.width = tree.width := by
  induction tree with
  | member key value rest valueIH restIH =>
      obtain ⟨new, valueDistinct, restDistinct⟩ := distinct
      have absent : key ∉ rest.normal.keys := mt mem_keys_normal.mp new
      rw [normal, width_insertAbsent_new rfl absent, valueIH valueDistinct, restIH restDistinct, width]
  | _ => simp_all [normal, width, DistinctKeys]

end Tree

end TariVault.Json
