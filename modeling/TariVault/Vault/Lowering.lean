import TariVault.Program.Interpretation
import TariVault.Vault.Calls

namespace TariVault

open Program VaultM StandardVault

/-! # Calls over any backend

A call over a backend is the call over single steps, each of which is carried out
by the backend.
-/

variable {β : Type} {A : β → Type} {α γ : Type}

def StorageBackend.lower (backend : StorageBackend A) :
    (op : HostOp BackendOp) → Host A (HostOp.Answer BackendOp.Answer op)
  | .now => Host.now
  | .generateKey => Host.generateKey
  | .generateNonce => Host.generateNonce
  | .newV4 => Host.newV4
  | .log line => Host.log line
  | .panic message => Host.panic message
  | .storage op => backend.perform op

/-- `low` is `high` with the steps of its backend carried out. -/
def Lowers (backend : StorageBackend A) (high : VaultM BackendOp.Answer α) (low : VaultM A α) : Prop :=
  low.run = high.run.interpret backend.lower

namespace Lowers

variable {backend : StorageBackend A}

theorem pure (value : α) : Lowers backend (pure value) (Pure.pure value) := rfl

theorem throw (error : VaultError) : Lowers backend (throw error : VaultM BackendOp.Answer α) (throw error) :=
  rfl

theorem bind {high : VaultM BackendOp.Answer α} {low : VaultM A α}
    {highRest : α → VaultM BackendOp.Answer γ} {lowRest : α → VaultM A γ}
    (first : Lowers backend high low) (rest : ∀ value, Lowers backend (highRest value) (lowRest value)) :
    Lowers backend (high >>= highRest) (low >>= lowRest) := by
  rw [Lowers, ExceptT.run_bind, ExceptT.run_bind, first, interpret_bind]
  refine congrArg (_ >>= ·) (funext fun result => ?_)
  cases result with
  | ok value => exact rest value
  | error error => rfl

theorem host {high : Host BackendOp.Answer α} {low : Host A α}
    (same : low = high.interpret backend.lower) : Lowers backend (VaultM.host high) (VaultM.host low) := by
  subst same
  exact (interpret_map backend.lower Except.ok high).symm

theorem attempt {convert : StorageError → VaultError} {high : Host BackendOp.Answer (Except StorageError α)}
    {low : Host A (Except StorageError α)} (same : low = high.interpret backend.lower) :
    Lowers backend (VaultM.attempt convert high) (VaultM.attempt convert low) := by
  subst same
  exact (interpret_map backend.lower (Except.mapError convert) high).symm

theorem hostOp {op : HostOp BackendOp} {low : Host A (HostOp.Answer BackendOp.Answer op)}
    (same : low = backend.lower op) :
    Lowers backend (VaultM.host (perform op)) (VaultM.host low) :=
  host (same.trans (interpret_perform backend.lower op).symm)

theorem panic (message : String) :
    Lowers (α := α) backend (VaultM.host (Host.panic message)) (VaultM.host (Host.panic message)) :=
  host (congrArg (Program.step _) (funext nofun))

end Lowers

section Functions

variable (backend : StorageBackend A) (aead : Aead)

theorem isExpired_lower (record : StoredRecord) :
    record.isExpired = (record.isExpired : Host BackendOp.Answer Bool).interpret backend.lower := by
  unfold StoredRecord.isExpired
  cases record.expiresAt <;> rfl

theorem expiryAfter_lowers (expiresInSecs : Option UInt64) :
    Lowers backend (expiryAfter expiresInSecs) (expiryAfter expiresInSecs) := by
  cases expiresInSecs with
  | none => exact .pure _
  | some secs =>
      simp only [expiryAfter]
      split
      · exact .throw _
      · refine .bind (.hostOp rfl) fun now => ?_
        cases Duration.seconds? secs.toNat with
        | none => exact .panic _
        | some duration =>
            simp only
            cases now.add? duration with
            | none => exact .panic _
            | some expiry => exact .pure _

theorem refuseExpired_lowers (recordId : RecordId) (notice : String) :
    Lowers (α := α) backend (refuseExpired atomicBackend recordId notice)
      (refuseExpired backend recordId notice) := by
  refine .bind (.hostOp rfl) fun result => ?_
  cases result with
  | ok removed => exact .bind (.hostOp rfl) fun _ => .throw _
  | error error => exact .bind (.hostOp rfl) fun _ => .bind (.hostOp rfl) fun _ => .throw _

theorem withLiveRecord_lowers {recordId : RecordId} {notice : String}
    {high : StoredRecord → VaultM BackendOp.Answer α} {low : StoredRecord → VaultM A α}
    (use : ∀ record, Lowers backend (high record) (low record)) :
    Lowers backend (withLiveRecord atomicBackend recordId notice high)
      (withLiveRecord backend recordId notice low) := by
  refine .bind (.attempt (interpret_perform backend.lower (.storage (.fetch recordId))).symm) fun stored => ?_
  refine .bind (.host (isExpired_lower backend stored)) fun expired => ?_
  cases expired with
  | true => exact refuseExpired_lowers backend recordId notice
  | false => exact use stored

theorem storeProof_lowers (proof : PlaintextProof) (expiresInSecs : Option UInt64) :
    Lowers backend (storeProof atomicBackend aead proof expiresInSecs)
      (storeProof backend aead proof expiresInSecs) := by
  unfold storeProof
  split
  · exact .throw _
  · refine .bind (.hostOp rfl) fun key => .bind (.hostOp rfl) fun nonce => ?_
    cases aead.encrypt key nonce proof.data with
    | none => exact .throw _
    | some ciphertext =>
        refine .bind (.hostOp rfl) fun recordId => .bind (expiryAfter_lowers backend expiresInSecs)
          fun expiresAt => .bind (.hostOp rfl) fun storedAt => ?_
        exact .bind (.attempt (interpret_perform backend.lower (.storage (.insert recordId _))).symm)
          fun _ => .bind (.hostOp rfl) fun _ => .pure _

theorem consume_lowers (claimId : ClaimId) (stored : StoredRecord) :
    Lowers backend (consume atomicBackend aead claimId stored) (consume backend aead claimId stored) := by
  unfold consume
  split
  · exact .throw _
  · cases FixedBytes.ofBytes? 12 stored.encrypted.nonce with
    | none => exact .panic _
    | some nonce =>
        simp only
        cases aead.decrypt claimId.encryptionKey nonce stored.encrypted.ciphertext with
        | none => exact .throw _
        | some plaintext =>
            exact .bind (.attempt (interpret_perform backend.lower (.storage (.delete _))).symm)
              fun _ => .bind (.hostOp rfl) fun _ => .pure _

theorem retrieveProof_lowers (claimIdStr : String) :
    Lowers backend (retrieveProof atomicBackend aead claimIdStr) (retrieveProof backend aead claimIdStr) := by
  unfold retrieveProof
  cases ClaimId.decode claimIdStr with
  | error error => exact .throw _
  | ok claimId => exact withLiveRecord_lowers backend fun record => consume_lowers backend aead claimId record

theorem cancel_lowers (claimId : ClaimId) (stored : StoredRecord) :
    Lowers backend (cancel atomicBackend claimId stored) (cancel backend claimId stored) := by
  refine .bind (.attempt (interpret_perform backend.lower (.storage (.delete _))).symm) fun deleted => ?_
  cases deleted with
  | true => exact .hostOp rfl
  | false => exact .throw _

theorem deleteProof_lowers (claimIdStr : String) :
    Lowers backend (deleteProof atomicBackend claimIdStr) (deleteProof backend claimIdStr) := by
  unfold deleteProof
  cases ClaimId.decode claimIdStr with
  | error error => exact .throw _
  | ok claimId => exact withLiveRecord_lowers backend fun record => cancel_lowers backend claimId record

theorem cleanup_lowers : Lowers backend (cleanup atomicBackend) (cleanup backend) := by
  refine .bind (.attempt (interpret_perform backend.lower (.storage .deleteExpired)).symm) fun removed => ?_
  simp only
  split
  · exact .bind (.hostOp rfl) fun _ => .pure _
  · exact .pure _

theorem VaultCall.program_eq (call : VaultCall) :
    call.program backend aead = (call.code aead).interpret backend.lower := by
  have mapped {γ : Type} {high : VaultM BackendOp.Answer γ} {low : VaultM A γ} {reply : γ → Reply}
      (lowers : Lowers backend high low) :
      Except.map reply <$> low.run = (Except.map reply <$> high.run).interpret backend.lower := by
    rw [interpret_map, lowers]
  cases call with
  | storeProof proof expiresInSecs => exact mapped (storeProof_lowers backend aead proof expiresInSecs)
  | retrieveProof claimIdStr => exact mapped (retrieveProof_lowers backend aead claimIdStr)
  | deleteProof claimIdStr => exact mapped (deleteProof_lowers backend claimIdStr)
  | cleanup => exact mapped (cleanup_lowers backend)

end Functions

end TariVault
