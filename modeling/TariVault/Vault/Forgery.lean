import TariVault.Vault.Alone

namespace TariVault

open Program VaultEvent TariVault.System

/-! # Cancelling with a forged claim

A cancellation looks at the record id of its claim and never at the key. So a
claim string with the right id and any key at all deletes the record.
-/

variable {aead : Aead} {state : VaultState} {claimIdStr : String} {forged : ClaimId} {record : StoredRecord}

/-- In any state, a claim string for a stored, unexpired record, with a key other than
the one that `store_proof` encrypted the record under. -/
structure Forgery (aead : Aead) (state : VaultState) (claimIdStr : String) (forged : ClaimId)
    (record : StoredRecord) : Prop where
  decoded : ClaimId.decode claimIdStr = .ok forged
  stored : state.records[forged.recordId]? = some record
  unexpired : ¬ record.ExpiredAt state.clock
  otherKey : ∃ proof, ∃ draft : Draft aead proof, draft.recordId = forged.recordId ∧ draft.record = record ∧
    draft.key ≠ forged.encryptionKey

/-- The answers of a machine whose failing operations may have had their effect: those
in `late` fail only after it. `LocalFileStore::delete` does so where `set_permissions`
fails, after the rename that removes the record. -/
def VaultState.respondLate (machine : Machine) (late : BackendOp → Bool) (state : VaultState) :
    (op : HostOp BackendOp) → Option (HostOp.Answer BackendOp.Answer op × VaultState)
  | .storage op =>
      match machine.fault op with
      | some error => some (op.failure error,
          if late op then { state with records := (state.records.apply state.clock op).2 } else state)
      | none => state.respond machine (.storage op)
  | op => state.respond machine op

/-- What is left of the records where the backend fails to delete. -/
def VaultState.afterFailedDelete (state : VaultState) (late : BackendOp → Bool) (recordId : RecordId) :
    VaultState :=
  if late (.delete recordId) then { state with records := state.records.erase recordId } else state

/-- The outcome of cancelling an unexpired record, whatever the key. -/
theorem deleteProof_run (machine : Machine) (late : BackendOp → Bool)
    (decoded : ClaimId.decode claimIdStr = .ok forged)
    (stored : state.records[forged.recordId]? = some record)
    (unexpired : ¬ record.ExpiredAt state.clock) :
    ((VaultCall.deleteProof claimIdStr).code aead).run (VaultState.respondLate machine late) state =
      match machine.fault (.fetch forged.recordId), machine.fault (.delete forged.recordId) with
      | some error, _ => some (.error (.ofFetch error), state)
      | none, some error =>
          some (.error (.storage error), state.afterFailedDelete late forged.recordId)
      | none, none => some (.ok .deleted,
          { state with records := state.records.erase forged.recordId }) := by
  have present : state.records.contains forged.recordId = true := by
    rw [← Std.ExtTreeMap.mem_iff_contains, ← Std.ExtTreeMap.isSome_getElem?_iff_mem, stored]
    rfl
  simp only [VaultCall.code, VaultCall.program, run_map, StandardVault.deleteProof, decoded]
  cases fetchFault : machine.fault (.fetch forged.recordId) with
  | some error =>
      -- A fetch has no effect that could come before its failure.
      have answered : state.respondLate machine late (.storage (.fetch forged.recordId)) =
          some (.error error, state) := by
        simp only [VaultState.respondLate, fetchFault, BackendOp.failure, Contents.apply, ite_self]
      simp only [withLiveRecord, run_attempt_bind, atomicBackend_fetch, perform_bind]
      rw [run_step answered]
      rfl
  | none =>
      have fetched : state.respondLate machine late (.storage (.fetch forged.recordId)) =
          some (.ok record, state) := by
        simp only [VaultState.respondLate, VaultState.respond, fetchFault, Contents.apply, stored]
      rw [withLiveRecord_passes fetched rfl unexpired]
      simp only [StandardVault.cancel, run_attempt_bind, atomicBackend_delete, perform_bind]
      cases deleteFault : machine.fault (.delete forged.recordId) with
      | some error =>
          have answered : state.respondLate machine late (.storage (.delete forged.recordId)) =
              some (.error error, state.afterFailedDelete late forged.recordId) := by
            simp only [VaultState.respondLate, deleteFault, BackendOp.failure, Contents.apply,
              VaultState.afterFailedDelete]
          rw [run_step answered]
          rfl
      | none =>
          have answered : state.respondLate machine late (.storage (.delete forged.recordId)) =
              some (.ok true, { state with records := state.records.erase forged.recordId }) := by
            simp only [VaultState.respondLate, VaultState.respond, deleteFault, Contents.apply, present]
          rw [run_step answered]
          rfl

/-- Any key but the right one makes a forgery of a fresh record. -/
theorem forgery_of_key {proof : PlaintextProof} {key other : EncryptionKey} {nonce : Nonce}
    {ciphertext : Bytes} (encrypted : aead.encrypt key nonce proof.data = some ciphertext)
    (different : key ≠ other) (recordId : RecordId) (clock : DateTime) :
    ∃ labels, ∃ config : Config (vaultSystem aead), Run (vaultStart aead clock) labels config ∧
      Forgery aead config.shared (ClaimId.encode ⟨recordId, other⟩) ⟨recordId, other⟩
        ⟨⟨nonce.bytes, ciphertext⟩, clock, none⟩ := by
  obtain ⟨_, _, stored, _⟩ :=
    store_alone (.refl (vaultStart aead clock)) 0 recordId rfl encrypted List.not_mem_nil
      (List.mem_singleton_self clock) fun _ _ _ => trivial
  refine ⟨_, _, stored, ClaimId.decode_encode _, Contents.getElem?_insert_self, ?_, proof,
    ⟨key, nonce, ciphertext, encrypted, recordId, clock, none⟩, rfl, rfl, different⟩
  intro holds
  obtain ⟨expiry, expires, _⟩ := holds
  contradiction

/-- A cancellation with a forged claim is refused, and the record stays, exactly
when the backend fails to fetch the record, or fails to delete it and has not deleted
it by then. -/
theorem forgery_refused_iff (forgery : Forgery aead state claimIdStr forged record)
    (machine : Machine) (late : BackendOp → Bool) :
    ∃ result after, ((VaultCall.deleteProof claimIdStr).code aead).run
        (VaultState.respondLate machine late) state = some (result, after) ∧
      ((∃ error, result = .error error) ∧ after.records[forged.recordId]? = some record ↔
        (machine.fault (.fetch forged.recordId)).isSome ∨
          (machine.fault (.delete forged.recordId)).isSome ∧ late (.delete forged.recordId) = false) := by
  have ran := @deleteProof_run aead state claimIdStr forged record machine late forgery.decoded
    forgery.stored forgery.unexpired
  rw [ran]
  cases fetchFault : machine.fault (.fetch forged.recordId) with
  | some error => exact ⟨_, _, rfl, by simp [forgery.stored]⟩
  | none =>
      cases deleteFault : machine.fault (.delete forged.recordId) with
      | some error =>
          refine ⟨_, _, rfl, ?_⟩
          cases deleted : late (.delete forged.recordId) with
          | false => simp [VaultState.afterFailedDelete, deleted, forgery.stored]
          | true => simp [VaultState.afterFailedDelete, deleted]
      | none => exact ⟨_, _, rfl, by simp⟩

/-- With a backend that fails every delete before it has an effect, the forged
cancellation is refused. -/
theorem forgery_refused_by_fault :
    ∃ labels, ∃ config : Config (vaultSystem .keyed), ∃ result after,
      Run (vaultStart .keyed .epoch) labels config ∧
      ((VaultCall.deleteProof (ClaimId.encode ⟨.replicate 16 0, .replicate 32 2⟩)).code .keyed).run
        (VaultState.respondLate ⟨.replicate 32 0, .replicate 12 0, .replicate 16 1,
          fun op => if op = .delete (.replicate 16 0) then some (.io "disk") else none⟩ fun _ => false)
        config.shared = some (result, after) ∧
      (∃ error, result = .error error) ∧
      after.records[FixedBytes.replicate 16 0]? = some ⟨⟨(FixedBytes.replicate 12 0).bytes,
        (FixedBytes.replicate 32 1).bytes ++ [7]⟩, .epoch, none⟩ := by
  obtain ⟨labels, config, run, forgery⟩ := @forgery_of_key .keyed ⟨[7]⟩ (.replicate 32 1) (.replicate 32 2)
    (.replicate 12 0) _ rfl (by decide) (.replicate 16 0) .epoch
  obtain ⟨result, after, ran, refused⟩ := forgery_refused_iff forgery
    ⟨.replicate 32 0, .replicate 12 0, .replicate 16 1,
      fun op => if op = .delete (.replicate 16 0) then some (.io "disk") else none⟩ fun _ => false
  exact ⟨labels, config, result, after, run, ran, refused.mpr (.inr ⟨rfl, rfl⟩)⟩

/-- With a backend that never fails, a forged claim deletes the record. -/
theorem forgery_deletes :
    ∃ labels, ∃ config : Config (vaultSystem .keyed), ∃ claimIdStr forged record,
      Run (vaultStart .keyed .epoch) labels config ∧
      Forgery .keyed config.shared claimIdStr forged record ∧
      ∃ after, ((VaultCall.deleteProof claimIdStr).code .keyed).run
          (VaultState.respondLate ⟨.replicate 32 0, .replicate 12 0, .replicate 16 1, fun _ => none⟩
            fun _ => false)
          config.shared = some (.ok .deleted, after) ∧
        after.records[forged.recordId]? = none := by
  obtain ⟨labels, config, run, forgery⟩ := @forgery_of_key .keyed ⟨[7]⟩ (.replicate 32 1) (.replicate 32 2)
    (.replicate 12 0) _ rfl (by decide) (.replicate 16 0) .epoch
  exact ⟨labels, config, _, _, _, run, forgery, _, deleteProof_run _ _ forgery.decoded forgery.stored
    forgery.unexpired, Contents.getElem?_erase_self⟩

end TariVault
