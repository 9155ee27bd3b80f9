import TariVault.Program.Trace
import TariVault.Storage.Serialised

namespace TariVault

open Program TariVault.System

/-! # Sequences of operations on a fresh store

The file store answers a sequence of operations as a finite map does, and after
every operation the vault file is that map.
-/

/-- An operation and what the clock shows when it is called. -/
structure TimedOp where
  now : DateTime
  op : BackendOp

def Contents.step (contents : Contents) (timed : TimedOp) : Option (BackendResult × Contents) :=
  some (⟨timed.op, (contents.apply timed.now timed.op).1⟩, (contents.apply timed.now timed.op).2)

section FileStore

variable (serde : Serde)

/-- The store, with one whole call after the other. -/
def LocalFileStore.step (store : LocalFileStore) (tid : Nat) (state : FileState) (timed : TimedOp) :
    Option (BackendResult × FileState) :=
  ((FileCall.mk store timed.op).code serde).run (FileState.respond tid) { state with clock := timed.now }

/-- Between calls nobody holds a lock and the vault file is the map. -/
def FileState.Represents (state : FileState) (contents : Contents) : Prop :=
  ∃ disk clock, state = .idle disk clock ∧ Holds serde disk contents

def FileState.fresh (clock : DateTime) : FileState := .idle ⟨none, fun _ => none⟩ clock

variable {serde}

theorem FileState.Represents.unique {state : FileState} {contents other : Contents}
    (left : state.Represents serde contents) (right : state.Represents serde other) : contents = other := by
  obtain ⟨disk, clock, rfl, holds⟩ := left
  obtain ⟨disk', clock', same, holds'⟩ := right
  cases same
  exact holds.unique holds'

theorem LocalFileStore.step_agrees (readsBack : serde.ReadsBack) {store : LocalFileStore}
    (hasParent : store.hasParent = true) (tid : Nat) {state : FileState} {contents : Contents}
    (represents : state.Represents serde contents) (timed : TimedOp) :
    ∃ answer next next', store.step serde tid state timed = some (answer, next) ∧
      contents.step timed = some (answer, next') ∧ next.Represents serde next' := by
  obtain ⟨disk, clock, rfl, holds⟩ := represents
  obtain ⟨disk', ran, left⟩ := @FileCall.code_refines serde ⟨store, timed.op⟩ tid timed.now _ _ readsBack
    hasParent holds
  exact ⟨_, _, _, ran, rfl, disk', timed.now, rfl, left⟩

/-- Opening a store on a fresh path creates the file of the empty map. -/
theorem LocalFileStore.new_fresh (readsBack : serde.ReadsBack) (tid : Nat) (clock : DateTime) :
    ∃ opened, (LocalFileStore.new serde true).run.run (FileState.respond tid) (.fresh clock) =
        some (.ok (), opened) ∧ opened.Represents serde ∅ := by
  obtain ⟨bytes, written, read⟩ := DiskState.readsBack readsBack ∅
  have within : (writeAtomic serde true ∅).run.Within OnFiles :=
    (FileCall.writeAtomic_within ..).mono fun _ => Writing.onFiles
  have ran : (writeAtomic serde true ∅).run.run (FileState.respond tid) (.fresh clock) = some (.ok (),
      .idle { (Disk.mk none fun _ => none).setTemp tid none with vault := some bytes } clock) := by
    rw [FileState.run_onFiles within, FileState.fresh]
    simp only [FileState.idle, writeAtomic_run written, Option.map_some]
  exact ⟨_, ran, _, _, rfl, ⟨bytes, ∅, rfl, read, .empty⟩⟩

theorem file_store_refines_map (readsBack : serde.ReadsBack) (mutex tid : Nat) (clock : DateTime)
    (ops : List TimedOp) :
    ∃ opened steps maps,
      (LocalFileStore.new serde true).run.run (FileState.respond tid) (.fresh clock) =
        some (.ok (), opened) ∧
      trace ((LocalFileStore.mk true mutex).step serde tid) opened ops = some steps ∧
      trace Contents.step ∅ ops = some maps ∧
      List.Forall₂ (fun file map => file.1 = map.1 ∧ file.2.Represents serde map.2) steps maps := by
  obtain ⟨opened, ran, empty⟩ := LocalFileStore.new_fresh readsBack tid clock
  have agrees (state : FileState) (contents : Contents) (timed : TimedOp)
      (represents : state.Represents serde contents) (_ : True) :=
    @LocalFileStore.step_agrees serde readsBack ⟨true, mutex⟩ rfl tid _ _ represents timed
  obtain ⟨steps, maps, files, abstract, same⟩ :=
    trace_agrees agrees empty (throughout_true Contents.step ∅ ops)
  exact ⟨opened, steps, maps, ran, files, abstract, same⟩

/-- An expiring and a lasting record: both are fetched, the lasting one is deleted, and
a sweep takes the other one. -/
def sweptAndDeleted : List TimedOp :=
  let late : DateTime := ⟨2000000000, by decide, by decide⟩
  [⟨.epoch, .insert (.replicate 16 0) ⟨⟨[], [1]⟩, .epoch, some ⟨1000000000, by decide, by decide⟩⟩⟩,
    ⟨.epoch, .insert (.replicate 16 1) ⟨⟨[], [2]⟩, .epoch, none⟩⟩, ⟨.epoch, .fetch (.replicate 16 0)⟩,
    ⟨.epoch, .fetch (.replicate 16 1)⟩, ⟨.epoch, .delete (.replicate 16 1)⟩, ⟨.epoch, .delete (.replicate 16 1)⟩,
    ⟨late, .deleteExpired⟩, ⟨late, .fetch (.replicate 16 0)⟩]

/-- With the libraries on hand. -/
theorem file_store_refines_map_concrete :
    ∃ opened steps maps,
      (LocalFileStore.new .concrete true).run.run (FileState.respond 0) (.fresh .epoch) =
        some (.ok (), opened) ∧
      trace ((LocalFileStore.mk true 0).step .concrete 0) opened sweptAndDeleted = some steps ∧
      trace Contents.step ∅ sweptAndDeleted = some maps ∧
      List.Forall₂ (fun file map => file.1 = map.1 ∧ file.2.Represents .concrete map.2) steps maps :=
  file_store_refines_map Serde.concrete_readsBack 0 0 .epoch _

end FileStore

end TariVault
