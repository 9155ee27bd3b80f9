import TariVault.Program.Cost
import TariVault.Vault.Processes

namespace TariVault

open Program FileM VaultM StandardVault

/-! # How many steps a call takes

Over the file store an operation is a number of steps of the file system, and a call of
the vault is a number of operations. Neither depends on the answers.
-/

variable {serde : Serde} {aead : Aead} {α κ : Type}

namespace FileM

theorem costs_io {program : Host FileOp.Answer (Except String α)} {total : Nat}
    (costs : program.Costs (fun _ => 1) total) : (io program).run.Costs (fun _ => 1) total :=
  costs.map

theorem costs_json {result : Except String α} : (json result).run.Costs (fun _ => 1) 0 :=
  .done _

end FileM

theorem costs_storage (op : FileOp) : (Host.storage op : Host FileOp.Answer op.Answer).Costs (fun _ => 1) 1 :=
  .perform _

theorem readState_costs : (LocalFileStore.readState serde).run.Costs (fun _ => 1) 1 :=
  Costs.bind_ok 0 (costs_io (costs_storage .read)) fun _ => costs_json

theorem writeAtomic_costs (hasParent : Bool) (state : DiskState) :
    (writeAtomic serde hasParent state).run.Costs (fun _ => 1) 6 := by
  unfold writeAtomic
  split
  · have filled : (fillAndPersist serde state).run.Costs (fun _ => 1) 3 :=
      .bind_ok 3 costs_json fun _ => .bind_ok 2 (costs_io (costs_storage (.writeAll _))) fun _ =>
        .bind_ok 1 (costs_io (costs_storage .flush)) fun _ => costs_io (costs_storage .persist)
    have dropped : (orDropTemp (fillAndPersist serde state)).run.Costs (fun _ => 1) 4 := by
      refine .bind 1 filled fun result => ?_
      cases result with
      | ok value => exact .done _
      | error error => exact .bind 0 (costs_storage .dropTemp) fun _ => .done _
    exact .bind_ok 5 (costs_io (costs_storage .newTemp)) fun _ => .bind_ok 1 dropped fun _ =>
      costs_io (costs_storage .setPermissions)
  · exact .done _

theorem withProcessLock_costs (store : LocalFileStore) {capture : Host FileOp.Answer κ} {body : κ → FileM α}
    {reading working : Nat} (captures : capture.Costs (fun _ => 1) reading)
    (costs : ∀ captured, (body captured).run.Costs (fun _ => 1) working) :
    (store.withProcessLock capture body).Costs (fun _ => 1) (reading + working + 5) := by
  have released (captured : κ) :
      (LocalFileStore.withFileLock (body captured)).run.Costs (fun _ => 1) (1 + (1 + (working + 1))) := by
    refine .bind_ok _ (costs_io (costs_storage .openLockFile)) fun _ => ?_
    refine .bind_ok _ (costs_io (costs_storage .lockExclusive)) fun _ => ?_
    exact .bind 1 (costs captured) fun result => .bind 0 (costs_storage .unlock) fun _ => .done _
  have whole : (store.withProcessLock capture body).Costs (fun _ => 1)
      (1 + (reading + (1 + (1 + (working + 1)) + 1))) := by
    refine .bind _ (costs_storage (.lockProcess _)) fun _ => .bind _ captures fun captured => ?_
    exact .bind 1 (released captured) fun result => .bind 0 (costs_storage (.unlockProcess _)) fun _ => .done _
  exact whole.mono (by omega)

/-- What the file store spends on an operation at most. -/
def fileCost : HostOp BackendOp → Nat
  | .storage (.fetch _) => 6
  | .storage (.insert _ _) => 12
  | .storage (.delete _) => 12
  | .storage .deleteExpired => 13
  | _ => 1

theorem perform_costs (store : LocalFileStore) (op : BackendOp) :
    ((store.backend serde).perform op).Costs (fun _ => 1) (fileCost (.storage op)) := by
  cases op with
  | insert recordId record =>
      exact withProcessLock_costs store (.done ()) fun _ => .bind_ok 6 readState_costs fun _ => writeAtomic_costs _ _
  | fetch recordId =>
      refine @withProcessLock_costs _ _ store _ _ 0 1 (.done ()) fun _ => .bind_ok 0 readState_costs fun _ => ?_
      split <;> exact .done _
  | delete recordId =>
      refine @withProcessLock_costs _ _ store _ _ 0 7 (.done ()) fun _ => .bind_ok 6 readState_costs fun _ => ?_
      dsimp only
      split
      · exact .bind_ok 0 (writeAtomic_costs _ _) fun _ => .done _
      · exact .done _
  | deleteExpired =>
      refine @withProcessLock_costs _ _ store _ _ 1 7 (.perform HostOp.now) fun _ =>
        .bind_ok 6 readState_costs fun _ => ?_
      dsimp only
      split
      · exact .bind_ok 0 (writeAtomic_costs _ _) fun _ => .done _
      · exact .done _

/-! What the vault spends on a call, when each operation of the store has its cost. -/

theorem costs_host {program : VaultProgram α} {total : Nat} (costs : program.Costs fileCost total) :
    (VaultM.host program).run.Costs fileCost total :=
  costs.map

theorem costs_attempt {convert : StorageError → VaultError} {program : VaultProgram (Except StorageError α)}
    {total : Nat} (costs : program.Costs fileCost total) :
    (VaultM.attempt convert program).run.Costs fileCost total :=
  costs.map

theorem costs_panic (message : String) :
    (VaultM.host (Host.panic message) : VaultM BackendOp.Answer α).run.Costs fileCost 1 :=
  @costs_host _ _ 1 (@Costs.step _ _ _ _ _ _ 0 1 (Nat.le_refl 1) fun answer => answer.elim)

theorem expiryAfter_costs (expiresInSecs : Option UInt64) :
    (expiryAfter expiresInSecs : VaultM BackendOp.Answer _).run.Costs fileCost 2 := by
  cases expiresInSecs with
  | none => exact .done _
  | some secs =>
      simp only [expiryAfter]
      split
      · exact .done _
      · refine .bind_ok 1 (costs_host (.perform HostOp.now)) fun now => ?_
        split
        · exact costs_panic _
        · split
          · exact costs_panic _
          · exact .done _

theorem storeProof_costs (proof : PlaintextProof) (expiresInSecs : Option UInt64) :
    (storeProof atomicBackend aead proof expiresInSecs).run.Costs fileCost 19 := by
  unfold storeProof
  split
  · exact .done _
  · refine .bind_ok 18 (costs_host (.perform HostOp.generateKey)) fun key => ?_
    refine .bind_ok 17 (costs_host (.perform HostOp.generateNonce)) fun nonce => ?_
    split
    · exact .done _
    · refine .bind_ok 16 (costs_host (.perform HostOp.newV4)) fun recordId => ?_
      refine .bind_ok 14 (expiryAfter_costs expiresInSecs) fun expiresAt => ?_
      refine .bind_ok 13 (costs_host (.perform HostOp.now)) fun storedAt => ?_
      refine .bind_ok 1 (costs_attempt (.perform (HostOp.storage (BackendOp.insert _ _)))) fun _ => ?_
      exact .bind_ok 0 (costs_host (.perform (HostOp.log _))) fun _ => .done _

theorem withLiveRecord_costs {recordId : RecordId} {notice : String} {use : StoredRecord → VaultM BackendOp.Answer α}
    (costs : ∀ record, (use record).run.Costs fileCost 14) :
    (withLiveRecord atomicBackend recordId notice use).run.Costs fileCost 21 := by
  refine .bind_ok 15 (costs_attempt (.perform (HostOp.storage (BackendOp.fetch _)))) fun stored => ?_
  refine @Costs.bind_ok _ _ _ _ _ _ 1 14 _ _ (costs_host ?_) fun expired => ?_
  · unfold StoredRecord.isExpired
    split
    · exact .bind 0 (.perform HostOp.now) fun _ => .done _
    · exact .done _
  · split
    · refine .bind_ok 2 (costs_host (.perform (HostOp.storage (BackendOp.delete _)))) fun removed => ?_
      cases removed with
      | ok removed => exact .bind_ok 1 (costs_host (.perform (HostOp.log _))) fun _ => .done _
      | error error =>
          refine .bind_ok 1 (costs_host (.perform (HostOp.log _))) fun _ => ?_
          exact .bind_ok 0 (costs_host (.perform (HostOp.log _))) fun _ => .done _
    · exact costs stored

theorem consume_costs (claimId : ClaimId) (stored : StoredRecord) :
    (consume atomicBackend aead claimId stored).run.Costs fileCost 14 := by
  unfold consume
  split
  · exact .done _
  · split
    · exact (costs_panic _).mono (by decide)
    · split
      · exact .done _
      · refine .bind_ok 2 (costs_attempt (.perform (HostOp.storage (BackendOp.delete _)))) fun _ => ?_
        exact .bind_ok 1 (costs_host (.perform (HostOp.log _))) fun _ => .done _

theorem cancel_costs (claimId : ClaimId) (stored : StoredRecord) :
    (cancel atomicBackend claimId stored).run.Costs fileCost 14 := by
  refine .bind_ok 2 (costs_attempt (.perform (HostOp.storage (BackendOp.delete _)))) fun deleted => ?_
  split
  · exact (costs_host (.perform (HostOp.log _))).mono (Nat.le_add_left 1 1)
  · exact .done _

theorem vaultCall_costs (call : VaultCall) (aead : Aead) : (call.code aead).Costs fileCost 21 := by
  cases call with
  | storeProof proof expiresInSecs => exact .map ((storeProof_costs proof expiresInSecs).mono (by decide))
  | retrieveProof claimIdStr =>
      refine .map ?_
      unfold retrieveProof
      split
      · exact .done _
      · exact withLiveRecord_costs fun stored => consume_costs _ stored
  | deleteProof claimIdStr =>
      refine .map ?_
      unfold deleteProof
      split
      · exact .done _
      · exact withLiveRecord_costs fun stored => cancel_costs _ stored
  | cleanup =>
      refine .map ?_
      refine .bind_ok 8 (costs_attempt (.perform (HostOp.storage BackendOp.deleteExpired))) fun removed => ?_
      dsimp only
      split
      · exact .bind_ok 7 (costs_host (.perform (HostOp.log _))) fun _ => .done _
      · exact .done _

/-- No call performs more than 21 steps over the file system. -/
theorem fileVaultCall_costs (serde : Serde) (aead : Aead) (call : FileVaultCall) :
    (call.call.program (call.store.backend serde) aead).Costs (fun _ => 1) 21 := by
  rw [call.call.program_eq]
  refine Costs.interpret (fun op => ?_) (vaultCall_costs call.call aead)
  cases op with
  | storage op => exact perform_costs call.store op
  | panic message => exact @Costs.step _ _ _ _ _ _ 0 1 (Nat.le_refl 1) fun answer => answer.elim
  | _ => exact .perform _

end TariVault
