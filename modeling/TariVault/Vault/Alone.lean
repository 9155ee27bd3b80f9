import TariVault.Program.Interpretation
import TariVault.Vault.Concurrent

namespace TariVault

open Program VaultEvent TariVault.System

/-! # A call by itself -/

/-- The surroundings of a call that runs alone: what it draws, and which of its
storage operations fail, leaving the records as they were. -/
structure Machine where
  key : EncryptionKey
  nonce : Nonce
  recordId : RecordId
  fault : BackendOp → Option StorageError

def VaultState.respond (machine : Machine) (state : VaultState) :
    (op : HostOp BackendOp) → Option (HostOp.Answer BackendOp.Answer op × VaultState)
  | .now => some (state.clock, state)
  | .generateKey => some (machine.key, state)
  | .generateNonce => some (machine.nonce, state)
  | .newV4 =>
      if machine.recordId ∈ state.drawn then none
      else some (machine.recordId, { state with drawn := machine.recordId :: state.drawn })
  | .log _ => some ((), state)
  | .panic _ => none
  | .storage op =>
      match machine.fault op with
      | some error => some (op.failure error, state)
      | none => some ((state.records.apply state.clock op).1,
          { state with records := (state.records.apply state.clock op).2 })

variable {aead : Aead} {record : StoredRecord}

/-- A call that runs alone takes steps of the system. -/
theorem VaultState.respond_act {machine : Machine} {state state' : VaultState}
    {op : HostOp BackendOp} {answer : HostOp.Answer BackendOp.Answer op}
    (shown : state.clock ∈ state.readings)
    (responded : state.respond machine op = some (answer, state')) :
    VaultAct state ⟨op, answer⟩ state' := by
  cases op with
  | now => cases responded; exact .now
  | generateKey => cases responded; exact .generateKey _
  | generateNonce => cases responded; exact .generateNonce _
  | newV4 =>
      simp only [respond] at responded
      split at responded
      · contradiction
      · rename_i fresh
        cases responded
        exact .newV4 fresh
  | log line => cases responded; exact .log line
  | panic message => exact answer.elim
  | storage op =>
      simp only [respond] at responded
      split at responded
      · cases responded
        exact .fail op _
      · cases responded
        exact .perform op shown

/-- A record that is fetched and has not expired goes on to its use, whoever answers. -/
theorem withLiveRecord_passes {α : Type} {state : VaultState} {recordId : RecordId}
    {notice : String} {use : StoredRecord → VaultM BackendOp.Answer α}
    {handle : VaultState → (op : HostOp BackendOp) → Option (HostOp.Answer BackendOp.Answer op × VaultState)}
    (fetched : handle state (.storage (.fetch recordId)) = some (.ok record, state))
    (read : handle state .now = some (state.clock, state))
    (unexpired : ¬ record.ExpiredAt state.clock) :
    (withLiveRecord atomicBackend recordId notice use).run.run handle state =
      (use record).run.run handle state := by
  simp only [withLiveRecord, run_attempt_bind, run_host_bind, atomicBackend_fetch, perform_bind]
  rw [run_step fetched]
  simp only
  cases expires : record.expiresAt with
  | none =>
      simp only [StoredRecord.isExpired, expires, pure_eq, done_bind, Bool.false_eq_true, if_false]
  | some expiry =>
      have notPassed : ¬ expiry < state.clock := fun passed => unexpired ⟨expiry, expires, passed⟩
      simp only [StoredRecord.isExpired, expires, Host.now, perform_bind, step_bind, pure_eq,
        done_bind]
      rw [run_step read]
      simp only [notPassed, decide_false, Bool.false_eq_true, if_false]

theorem withLiveRecord_refuses {α : Type} (machine : Machine) {state : VaultState}
    {recordId : RecordId} {notice : String} {use : StoredRecord → VaultM BackendOp.Answer α}
    (healthy : machine.fault (.fetch recordId) = none)
    (deletes : machine.fault (.delete recordId) = none)
    (stored : state.records[recordId]? = some record) (expired : record.ExpiredAt state.clock) :
    (withLiveRecord atomicBackend recordId notice use).run.run (VaultState.respond machine) state =
      some (.error .proofExpired, { state with records := state.records.erase recordId }) := by
  obtain ⟨expiry, expires, passed⟩ := expired
  have answered : state.respond machine (.storage (.fetch recordId)) = some (.ok record, state) := by
    simp only [VaultState.respond, healthy, Contents.apply, stored]
  have read : state.respond machine .now = some (state.clock, state) := rfl
  have erased : state.respond machine (.storage (.delete recordId)) =
      some (.ok (state.records.contains recordId),
        { state with records := state.records.erase recordId }) := by
    simp only [VaultState.respond, deletes, Contents.apply]
  simp only [withLiveRecord, run_attempt_bind, run_host_bind, atomicBackend_fetch, perform_bind]
  rw [run_step answered]
  simp only [StoredRecord.isExpired, expires, Host.now, perform_bind, step_bind, pure_eq, done_bind]
  rw [run_step read]
  simp only [passed, decide_true, if_true, refuseExpired, run_host_bind, atomicBackend_delete,
    perform_bind]
  rw [run_step erased]
  rfl

/-- What a call does alone it may do in the system. -/
theorem acts_alone {machine : Machine} {tid : Nat} {call : VaultCall} {state state' : VaultState}
    {result : Except VaultError Reply} (shown : state.clock ∈ state.readings)
    (ran : (call.code aead).run (VaultState.respond machine) state = some (result, state')) :
    ∃ events, Leads (call.code aead) events (.done result) ∧
      @Acts _ _ (vaultSystem aead) tid state events state' := by
  refine @acts_of_run _ _ (vaultSystem aead) _ tid (VaultState.respond machine)
    (fun state => state.clock ∈ state.readings) (fun shown responded => ?_) _ _ _ _ shown ran
  have act := VaultState.respond_act shown responded
  have same := act.clock_eq
  exact ⟨act, by rw [same.1, same.2]; exact shown⟩

/-- A call that runs alone, in a run of the system. -/
theorem call_alone {ok : Config (vaultSystem aead) → Label (vaultSystem aead) → Prop}
    {first config : Config (vaultSystem aead)} {labels : List (Label (vaultSystem aead))}
    (front : RunWhere ok first labels config) (machine : Machine) {tid : Nat} {call : VaultCall}
    (free : config.threads tid = none) (shown : config.shared.clock ∈ config.shared.readings)
    {result : Except VaultError Reply} {shared : VaultState}
    (ran : (call.code aead).run (VaultState.respond machine) config.shared = some (result, shared))
    (allowed : ∀ config label, (∀ now, label ≠ .drift now) → ok config label) :
    ∃ labels' events, RunWhere ok first labels'
      ⟨shared, Function.update config.threads tid (some ⟨call, events, .done result⟩)⟩ := by
  obtain ⟨events, leads, acts⟩ := @acts_alone _ _ tid _ _ _ _ shown ran
  exact ⟨_, events, front.trans (RunWhere.alone free leads acts (allowed _ _ (by simp))
    fun _ _ _ _ _ _ => allowed _ _ (by simp))⟩

section Healthy

variable {machine : Machine} {vault : VaultState} {proof : PlaintextProof} {claimIdStr : String} {claimId : ClaimId}

theorem store_answers (healthy : machine.fault = fun _ => none) (fresh : machine.recordId ∉ vault.drawn)
    {ciphertext : Bytes} (encrypted : aead.encrypt machine.key machine.nonce proof.data = some ciphertext) :
    ∃ line, Leads ((VaultCall.storeProof proof none).code aead)
        [⟨.generateKey, machine.key⟩, ⟨.generateNonce, machine.nonce⟩, ⟨.newV4, machine.recordId⟩,
          ⟨.now, vault.clock⟩, ⟨.storage (.insert machine.recordId
            ⟨⟨machine.nonce.bytes, ciphertext⟩, vault.clock, none⟩), .ok ()⟩, ⟨.log line, ()⟩]
        (.done (.ok (.claimId (ClaimId.encode ⟨machine.recordId, machine.key⟩)))) ∧
      Answers (VaultState.respond machine) vault
        [⟨.generateKey, machine.key⟩, ⟨.generateNonce, machine.nonce⟩, ⟨.newV4, machine.recordId⟩,
          ⟨.now, vault.clock⟩, ⟨.storage (.insert machine.recordId
            ⟨⟨machine.nonce.bytes, ciphertext⟩, vault.clock, none⟩), .ok ()⟩, ⟨.log line, ()⟩]
        { vault with
          records := vault.records.insert machine.recordId ⟨⟨machine.nonce.bytes, ciphertext⟩, vault.clock, none⟩
          drawn := machine.recordId :: vault.drawn } := by
  obtain ⟨line, leads⟩ := store_completes encrypted machine.recordId vault.clock
  have drew : vault.respond machine .newV4 =
      some (machine.recordId, { vault with drawn := machine.recordId :: vault.drawn }) := if_neg fresh
  refine ⟨line, leads, .cons rfl (.cons rfl (.cons drew (.cons rfl (.cons ?_ (.cons rfl .nil)))))⟩
  simp only [VaultState.respond, healthy]
  rfl

/-- A proof with a lifetime of one second is stored at the epoch. -/
theorem expiring_answers (healthy : machine.fault = fun _ => none) (fresh : machine.recordId ∉ vault.drawn)
    (atEpoch : vault.clock = .epoch) :
    ∃ line, Leads ((VaultCall.storeProof ⟨[7]⟩ (some 1)).code .keyed)
        [⟨.generateKey, machine.key⟩, ⟨.generateNonce, machine.nonce⟩, ⟨.newV4, machine.recordId⟩,
          ⟨.now, .epoch⟩, ⟨.now, .epoch⟩, ⟨.storage (.insert machine.recordId ⟨⟨machine.nonce.bytes,
            machine.key.bytes ++ [7]⟩, .epoch, some ⟨1000000000, by decide, by decide⟩⟩), .ok ()⟩, ⟨.log line, ()⟩]
        (.done (.ok (.claimId (ClaimId.encode ⟨machine.recordId, machine.key⟩)))) ∧
      Answers (VaultState.respond machine) vault
        [⟨.generateKey, machine.key⟩, ⟨.generateNonce, machine.nonce⟩, ⟨.newV4, machine.recordId⟩,
          ⟨.now, .epoch⟩, ⟨.now, .epoch⟩, ⟨.storage (.insert machine.recordId ⟨⟨machine.nonce.bytes,
            machine.key.bytes ++ [7]⟩, .epoch, some ⟨1000000000, by decide, by decide⟩⟩), .ok ()⟩, ⟨.log line, ()⟩]
        { vault with
          records := vault.records.insert machine.recordId ⟨⟨machine.nonce.bytes, machine.key.bytes ++ [7]⟩, .epoch,
            some ⟨1000000000, by decide, by decide⟩⟩
          drawn := machine.recordId :: vault.drawn } := by
  let named : VaultState := { vault with drawn := machine.recordId :: vault.drawn }
  have drew : vault.respond machine .newV4 = some (machine.recordId, named) := if_neg fresh
  have read : named.respond machine .now = some (.epoch, named) := congrArg (fun now => some (now, named)) atEpoch
  refine ⟨_, .step (.step (.step (.step (.step (.step (.step (.refl _))))))), .cons rfl (.cons rfl (.cons drew
    (.cons read (.cons read (.cons ?_ (.cons rfl .nil))))))⟩
  simp only [VaultState.respond, healthy]
  rfl

theorem retrieve_answers (healthy : machine.fault = fun _ => none)
    (decoded : ClaimId.decode claimIdStr = .ok claimId) (stored : vault.records[claimId.recordId]? = some record)
    (noExpiry : record.expiresAt = none) {nonce : Nonce} (nonceBytes : nonce.bytes = record.encrypted.nonce)
    {plaintext : Bytes}
    (decrypted : aead.decrypt claimId.encryptionKey nonce record.encrypted.ciphertext = some plaintext) :
    ∃ line, Leads ((VaultCall.retrieveProof claimIdStr).code aead)
        [⟨.storage (.fetch claimId.recordId), .ok record⟩,
          ⟨.storage (.delete claimId.recordId), .ok (vault.records.contains claimId.recordId)⟩, ⟨.log line, ()⟩]
        (.done (.ok (.proof ⟨plaintext⟩))) ∧
      Answers (VaultState.respond machine) vault
        [⟨.storage (.fetch claimId.recordId), .ok record⟩,
          ⟨.storage (.delete claimId.recordId), .ok (vault.records.contains claimId.recordId)⟩, ⟨.log line, ()⟩]
        { vault with records := vault.records.erase claimId.recordId } := by
  obtain ⟨next, line, opens, closes⟩ := retrieve_completes record decoded (.never noExpiry) nonceBytes decrypted
  have fetches : vault.respond machine (.storage (.fetch claimId.recordId)) = some (.ok record, vault) := by
    simp only [VaultState.respond, healthy, Contents.apply, stored]
  have deletes : vault.respond machine (.storage (.delete claimId.recordId)) =
      some (.ok (vault.records.contains claimId.recordId),
        { vault with records := vault.records.erase claimId.recordId }) := by
    simp only [VaultState.respond, healthy, Contents.apply]
  exact ⟨line, opens.trans (.step (closes (vault.records.contains claimId.recordId))),
    .cons fetches (.cons deletes (.cons rfl .nil))⟩

theorem missing_answers (healthy : machine.fault = fun _ => none)
    (decoded : ClaimId.decode claimIdStr = .ok claimId) (absent : vault.records[claimId.recordId]? = none) :
    Leads ((VaultCall.retrieveProof claimIdStr).code aead)
        [⟨.storage (.fetch claimId.recordId), .error .notFound⟩] (.done (.error .proofNotFound)) ∧
      Answers (VaultState.respond machine) vault [⟨.storage (.fetch claimId.recordId), .error .notFound⟩] vault := by
  refine ⟨missing_completes decoded, .cons ?_ .nil⟩
  simp only [VaultState.respond, healthy, Contents.apply, absent]

theorem expired_answers (healthy : machine.fault = fun _ => none)
    (decoded : ClaimId.decode claimIdStr = .ok claimId) (stored : vault.records[claimId.recordId]? = some record)
    {expiry : DateTime} (expires : record.expiresAt = some expiry) (passed : expiry < vault.clock) :
    ∃ line, Leads ((VaultCall.retrieveProof claimIdStr).code aead)
        [⟨.storage (.fetch claimId.recordId), .ok record⟩, ⟨.now, vault.clock⟩,
          ⟨.storage (.delete claimId.recordId), .ok (vault.records.contains claimId.recordId)⟩, ⟨.log line, ()⟩]
        (.done (.error .proofExpired)) ∧
      Answers (VaultState.respond machine) vault
        [⟨.storage (.fetch claimId.recordId), .ok record⟩, ⟨.now, vault.clock⟩,
          ⟨.storage (.delete claimId.recordId), .ok (vault.records.contains claimId.recordId)⟩, ⟨.log line, ()⟩]
        { vault with records := vault.records.erase claimId.recordId } := by
  obtain ⟨line, leads⟩ := @expired_completes aead record _ claimId _ _ decoded expires passed
    (vault.records.contains claimId.recordId)
  have fetches : vault.respond machine (.storage (.fetch claimId.recordId)) = some (.ok record, vault) := by
    simp only [VaultState.respond, healthy, Contents.apply, stored]
  have deletes : vault.respond machine (.storage (.delete claimId.recordId)) =
      some (.ok (vault.records.contains claimId.recordId),
        { vault with records := vault.records.erase claimId.recordId }) := by
    simp only [VaultState.respond, healthy, Contents.apply]
  exact ⟨line, leads, .cons fetches (.cons rfl (.cons deletes (.cons rfl .nil)))⟩

theorem delete_answers (healthy : machine.fault = fun _ => none)
    (decoded : ClaimId.decode claimIdStr = .ok claimId) (stored : vault.records[claimId.recordId]? = some record)
    (noExpiry : record.expiresAt = none) :
    ∃ line, Leads ((VaultCall.deleteProof claimIdStr).code aead)
        [⟨.storage (.fetch claimId.recordId), .ok record⟩, ⟨.storage (.delete claimId.recordId), .ok true⟩,
          ⟨.log line, ()⟩] (.done (.ok .deleted)) ∧
      Answers (VaultState.respond machine) vault
        [⟨.storage (.fetch claimId.recordId), .ok record⟩, ⟨.storage (.delete claimId.recordId), .ok true⟩,
          ⟨.log line, ()⟩] { vault with records := vault.records.erase claimId.recordId } := by
  obtain ⟨next, line, opens, closes⟩ := @delete_completes aead record _ claimId decoded [] (.never noExpiry)
  have fetches : vault.respond machine (.storage (.fetch claimId.recordId)) = some (.ok record, vault) := by
    simp only [VaultState.respond, healthy, Contents.apply, stored]
  have contained : vault.records.contains claimId.recordId = true := by
    rw [Std.ExtTreeMap.contains_eq_isSome_getElem?, stored, Option.isSome_some]
  have deletes : vault.respond machine (.storage (.delete claimId.recordId)) =
      some (.ok true, { vault with records := vault.records.erase claimId.recordId }) := by
    simp only [VaultState.respond, healthy, Contents.apply, contained]
  exact ⟨line, opens.trans (.step closes), .cons fetches (.cons deletes (.cons rfl .nil))⟩

/-- A key that does not open the record changes nothing. -/
theorem refused_answers (healthy : machine.fault = fun _ => none)
    (decoded : ClaimId.decode claimIdStr = .ok claimId) (stored : vault.records[claimId.recordId]? = some record)
    (noExpiry : record.expiresAt = none) {nonce : Nonce} (nonceBytes : nonce.bytes = record.encrypted.nonce)
    (rejected : aead.decrypt claimId.encryptionKey nonce record.encrypted.ciphertext = none) :
    Leads ((VaultCall.retrieveProof claimIdStr).code aead) [⟨.storage (.fetch claimId.recordId), .ok record⟩]
        (.done (.error .decryptionFailed)) ∧
      Answers (VaultState.respond machine) vault [⟨.storage (.fetch claimId.recordId), .ok record⟩] vault := by
  have refuses : (StandardVault.consume atomicBackend aead claimId record).run = .done (.error .decryptionFailed) := by
    have length : record.encrypted.nonce.length = 12 := nonceBytes ▸ nonce.length_eq
    unfold StandardVault.consume
    rw [if_neg (by simp [length]), ← nonceBytes, FixedBytes.ofBytes?_bytes]
    simp only [rejected]
    rfl
  refine ⟨refused_completes decoded (.never noExpiry) refuses, .cons ?_ .nil⟩
  simp only [VaultState.respond, healthy, Contents.apply, stored]

/-- A cleanup that sweeps logs what it has removed, if that is anything. -/
theorem cleanup_completes (removed : Nat) :
    ∃ logs, (logs = [] ∨ ∃ line, logs = [logged line]) ∧
      Leads (VaultCall.cleanup.code aead) (swept (.ok removed) :: logs) (.done (.ok (.removed removed))) := by
  suffices inside : ∃ logs, (logs = [] ∨ ∃ line, logs = [logged line]) ∧
      Leads (StandardVault.cleanup atomicBackend).run (swept (.ok removed) :: logs) (.done (.ok removed)) by
    obtain ⟨logs, some_, leads⟩ := inside
    exact ⟨logs, some_, leads.map (Except.map Reply.removed)⟩
  simp only [StandardVault.cleanup, run_attempt_bind, atomicBackend_deleteExpired, perform_bind]
  by_cases some_ : 0 < removed
  · refine ⟨[logged ("Cleanup sweep removed " ++ toString removed ++ " expired proof(s)")], .inr ⟨_, rfl⟩, .step ?_⟩
    simp only [some_, if_true, run_host_bind, Host.log, perform_bind]
    exact .step (.refl _)
  · refine ⟨[], .inl rfl, .step ?_⟩
    simp only [some_, if_false]
    exact .refl _

theorem cleanup_answers (healthy : machine.fault = fun _ => none) :
    ∃ events, Leads (VaultCall.cleanup.code aead) events
        (.done (.ok (.removed (vault.records.due vault.clock).size))) ∧
      Answers (VaultState.respond machine) vault events
        { vault with records := vault.records.sweep vault.clock } ∧
      ∀ event ∈ events, ∀ recordId record answer, event ≠ ⟨.storage (.insert recordId record), answer⟩ := by
  obtain ⟨logs, some_, leads⟩ := @cleanup_completes aead (vault.records.due vault.clock).size
  have sweeps : vault.respond machine (.storage .deleteExpired) =
      some (.ok (vault.records.due vault.clock).size, { vault with records := vault.records.sweep vault.clock }) := by
    simp only [VaultState.respond, healthy, Contents.apply_deleteExpired]
  rcases some_ with rfl | ⟨line, rfl⟩
  · exact ⟨_, leads, .cons sweeps .nil, by simp⟩
  · exact ⟨_, leads, .cons sweeps (.cons rfl .nil), by simp⟩

end Healthy

end TariVault
