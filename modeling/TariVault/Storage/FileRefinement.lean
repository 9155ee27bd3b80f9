import TariVault.Storage.Contents
import TariVault.Storage.FileSystem

namespace TariVault

open Program TariVault.System

/-! # The file as a map

A vault file that parses holds a map from record ids to records, and each closure
does to the file what its operation does to the map.
-/

variable {serde : Serde} {tid : Nat} {disk : Disk} {contents : Contents} {now : DateTime}

/-- The vault file parses, to a state with the records of `contents` under their
hyphenated ids. -/
structure Holds (serde : Serde) (disk : Disk) (contents : Contents) : Prop where
  parses : ∃ bytes state, disk.vault = some bytes ∧ DiskState.fromSlice serde bytes = .ok state ∧
    Mirrors Uuid.hyphenated id state contents

theorem Holds.unique {other : Contents} (left : Holds serde disk contents)
    (right : Holds serde disk other) : contents = other := by
  obtain ⟨bytes, state, vault, parsed, mirrors⟩ := left.parses
  obtain ⟨bytes', state', vault', parsed', mirrors'⟩ := right.parses
  cases vault.symm.trans vault'
  cases parsed.symm.trans parsed'
  refine Std.ExtTreeMap.ext_getElem? fun recordId => ?_
  simpa using (mirrors.lookup recordId).symm.trans (mirrors'.lookup recordId)

section Steps

variable {state : DiskState} {bytes : Bytes}

theorem readState_run (vault : disk.vault = some bytes)
    (parsed : DiskState.fromSlice serde bytes = .ok state) :
    (LocalFileStore.readState serde).run.run (Disk.handle tid) disk = some (.ok state, disk) := by
  have answered : disk.handle tid (.storage .read) = some (.ok bytes, disk) := by
    simp only [Disk.handle, Disk.apply, vault]
  rw [LocalFileStore.readState, run_ok_bind (FileM.run_io (FileM.run_storage answered)),
    FileM.run_json, parsed]
  rfl

/-- A successful write replaces the vault file and leaves no temporary file. -/
theorem writeAtomic_run (written : state.toVecPretty serde = .ok bytes) :
    (writeAtomic serde true state).run.run (Disk.handle tid) disk =
      some (.ok (), { disk.setTemp tid none with vault := some bytes }) := by
  let opened := disk.setTemp tid (some [])
  let full := opened.setTemp tid (some bytes)
  have openedTemp : opened.temps tid = some [] := Function.update_self ..
  have created : disk.handle tid (.storage .newTemp) = some (.ok (), opened) := rfl
  have wrote : opened.handle tid (.storage (.writeAll bytes)) = some (.ok (), full) := by
    simp only [Disk.handle, Disk.apply, openedTemp, List.nil_append, full]
  have flushed : full.handle tid (.storage .flush) = some (.ok (), full) := rfl
  have persisted : full.handle tid (.storage .persist) =
      some (.ok (), { full.setTemp tid none with vault := some bytes }) := by
    have fullTemp : full.temps tid = some bytes := Function.update_self ..
    simp only [Disk.handle, Disk.apply, fullTemp]
  have restricted (after : Disk) :
      after.handle tid (.storage .setPermissions) = some (.ok (), after) := rfl
  have serialized : (FileM.json (state.toVecPretty serde)).run.run (Disk.handle tid) opened =
      some (.ok bytes, opened) := by
    rw [FileM.run_json, written]
    rfl
  have body : (fillAndPersist serde state).run.run (Disk.handle tid) opened =
      some (.ok (), { full.setTemp tid none with vault := some bytes }) := by
    rw [fillAndPersist, run_ok_bind serialized, run_ok_bind (FileM.run_io (FileM.run_storage wrote)),
      run_ok_bind (FileM.run_io (FileM.run_storage flushed))]
    exact FileM.run_io (FileM.run_storage persisted)
  rw [writeAtomic, if_pos rfl, run_ok_bind (FileM.run_io (FileM.run_storage created)),
    run_ok_bind (FileM.run_orDropTemp_ok body), FileM.run_io (FileM.run_storage (restricted _))]
  simp [full, opened, Disk.setTemp, Except.mapError]

end Steps

section Mirrored

variable {state : DiskState} {op : BackendOp}

theorem getElem?_of_mirrors (mirrors : Mirrors Uuid.hyphenated id state contents)
    (recordId : RecordId) : state[Uuid.hyphenated recordId]? = contents[recordId]? := by
  rw [mirrors.lookup, Option.map_id, id]

theorem sweep_mirrors (mirrors : Mirrors Uuid.hyphenated id state contents) :
    Mirrors Uuid.hyphenated id (state.filter fun _ record => record.retainedAt now)
      (contents.sweep now) :=
  mirrors.filter fun _ _ _ => rfl

theorem outcome_eq (mirrors : Mirrors Uuid.hyphenated id state contents) :
    op.outcome now state = (contents.apply now op).1 := by
  cases op with
  | insert recordId record => rfl
  | fetch recordId =>
      have same := @getElem?_of_mirrors _ _ mirrors recordId
      cases found : contents[recordId]? <;> simp [BackendOp.outcome, Contents.apply, same, found]
  | delete recordId => exact congrArg Except.ok (mirrors.contains_eq recordId)
  | deleteExpired =>
      simp only [BackendOp.outcome, Contents.apply, mirrors.size_eq Uuid.hyphenated_injective,
        (sweep_mirrors mirrors).size_eq Uuid.hyphenated_injective]

theorem filter_eq_self (none_removed : ¬ 0 < state.size -
      (state.filter fun _ record => record.retainedAt now).size) :
    (state.filter fun _ record => record.retainedAt now) = state := by
  have le : (state.filter fun _ record => record.retainedAt now).size ≤ state.size :=
    Std.ExtTreeMap.size_filter_le_size
  have same : (state.filter fun _ record => record.retainedAt now).size = state.size := by omega
  exact Std.ExtTreeMap.filter_eq_self_iff.mpr (Std.ExtTreeMap.size_filter_eq_size_iff.mp same)

/-- The state an operation leaves, written or not, is the contents it leaves. -/
theorem rewrite_mirrors (mirrors : Mirrors Uuid.hyphenated id state contents) :
    Mirrors Uuid.hyphenated id ((op.rewrite now state).getD state) (contents.apply now op).2 := by
  cases op with
  | insert recordId record => exact mirrors.insert Uuid.hyphenated_injective recordId record
  | fetch recordId => exact mirrors
  | delete recordId =>
      simp only [BackendOp.rewrite, Contents.apply]
      cases existed : state.contains (Uuid.hyphenated recordId) with
      | true => exact mirrors.erase Uuid.hyphenated_injective recordId
      | false =>
          rw [mirrors.contains_eq] at existed
          rw [Contents.erase_of_absent existed]
          exact mirrors
  | deleteExpired =>
      simp only [BackendOp.rewrite, Contents.apply]
      split
      · exact sweep_mirrors mirrors
      · rename_i noneRemoved
        have swept := @sweep_mirrors _ now _ mirrors
        rw [filter_eq_self noneRemoved] at swept
        exact swept

end Mirrored

/-- On a file that holds some contents, an operation answers and leaves the file as
the map does. -/
theorem transact_refines (readsBack : serde.ReadsBack) (op : BackendOp)
    (holds : Holds serde disk contents) :
    ∃ disk', (transact serde true op now).run (Disk.handle tid) disk =
        some ((contents.apply now op).1, disk') ∧ Holds serde disk' (contents.apply now op).2 := by
  obtain ⟨bytes, state, vault, parsed, mirrors⟩ := holds.parses
  have left := @rewrite_mirrors _ now _ op mirrors
  rw [transact, run_bind_of_eq (readState_run vault parsed), ← outcome_eq mirrors]
  simp only [transition]
  cases rewritten : op.rewrite now state with
  | none =>
      rw [rewritten] at left
      exact ⟨disk, rfl, ⟨bytes, state, vault, parsed, left⟩⟩
  | some next =>
      rw [rewritten] at left
      obtain ⟨text, written, readBack⟩ := DiskState.readsBack readsBack next
      simp only
      rw [run_bind_of_eq (writeAtomic_run written)]
      exact ⟨_, rfl, ⟨text, next, rfl, readBack, left⟩⟩

end TariVault
