import TariVault.Data.JsonValue
import TariVault.Vault.Sequential

namespace TariVault

open Program Session

/-! # The JSON-RPC handler

It takes JSON values, hands their text to the vault as bytes, and reads the bytes of
a retrieved proof as JSON again.
-/

variable {β : Type} {A : β → Type} {α σ : Type} {json : SerdeJson}

namespace PlaintextProof

/-- Writing a value to bytes cannot fail. -/
def fromJson (value : JsonValue json) : Except VaultError PlaintextProof := .ok { data := value.toVec }

def intoJson (json : SerdeJson) (proof : PlaintextProof) : Except VaultError (JsonValue json) :=
  (JsonValue.fromSlice json proof.data).mapError .serialization

end PlaintextProof

structure StoreProofParams (json : SerdeJson) where
  proofJson : JsonValue json
  expiresInSecs : Option UInt64

structure ProofObject (json : SerdeJson) where
  proofJson : JsonValue json

structure ErrorObject where
  code : Int
  message : String
deriving DecidableEq

def VaultError.errorObject (error : VaultError) : ErrorObject := { code := error.rpcCode, message := error.toString }

/-- Storage and serialization errors are logged. -/
def vaultToRpcErr (error : VaultError) : Host A ErrorObject := do
  if error.rpcCode = -32005 then Host.log ("Internal vault error: " ++ error.toString)
  return error.errorObject

abbrev RpcM (A : β → Type) := ExceptT ErrorObject (Host A)

/-- The `?` operator after `map_err(vault_to_rpc_err)`. -/
def RpcM.attempt (program : Host A (Except VaultError α)) : RpcM A α :=
  ExceptT.mk do
    match ← program with
    | .ok value => return .ok value
    | .error error => return .error (← vaultToRpcErr error)

structure VaultRpcImpl (A : β → Type) where
  vault : ProofVault A
  maxProofSizeBytes : UInt64

namespace VaultRpcImpl

open RpcM

variable (rpc : VaultRpcImpl A)

/-- A proof that is too large as text is refused. -/
def checkSize (value : JsonValue json) : Except VaultError Unit :=
  if rpc.maxProofSizeBytes.toNat < value.toString.utf8ByteSize then
    .error (.invalidParameter ("proof_json exceeds maximum allowed size of " ++
      toString rpc.maxProofSizeBytes.toNat ++ " bytes"))
  else .ok ()

def storeProof (params : StoreProofParams json) : RpcM A String := do
  attempt (pure (rpc.checkSize params.proofJson))
  let proof ← attempt (pure (PlaintextProof.fromJson params.proofJson))
  attempt (rpc.vault.storeProof proof params.expiresInSecs).run

def retrieveProof (json : SerdeJson) (claimId : String) : RpcM A (ProofObject json) := do
  let proof ← attempt (rpc.vault.retrieveProof claimId).run
  let proofJson ← attempt (pure (proof.intoJson json))
  return { proofJson }

def deleteProof (claimId : String) : RpcM A Unit := attempt (rpc.vault.deleteProof claimId).run

end VaultRpcImpl

section Exec

variable {handle : σ → (op : HostOp β) → Option (HostOp.Answer A op × σ)} {state state' : σ}

def LogsSilently (handle : σ → (op : HostOp β) → Option (HostOp.Answer A op × σ)) : Prop :=
  ∀ state line, handle state (.log line) = some ((), state)

theorem respond_logsSilently (supply : Supply) (store : Session σ → (op : β) → Option (A op × Session σ)) :
    LogsSilently (respond supply store) := fun _ _ => rfl

theorem exec_vaultToRpcErr (silent : LogsSilently handle) (error : VaultError) :
    (vaultToRpcErr error).exec handle state = (some error.errorObject, state) := by
  unfold vaultToRpcErr
  split
  · exact exec_step (silent state _)
  · rfl

/-- An attempted program ends as it does alone, but for the form of its error. -/
theorem exec_attempt (silent : LogsSilently handle) (program : Host A (Except VaultError α)) :
    (RpcM.attempt program).run.exec handle state =
      ((program.exec handle state).1.map (Except.mapError VaultError.errorObject),
        (program.exec handle state).2) := by
  change (program >>= _).exec handle state = _
  cases finished : (program.exec handle state).1 with
  | none => exact exec_bind_stuck finished
  | some result =>
      rw [exec_bind_of_eq finished]
      cases result with
      | ok value => rfl
      | error error =>
          change (_ <$> vaultToRpcErr error).exec handle _ = _
          rw [exec_map, exec_vaultToRpcErr silent]
          rfl

theorem exec_attempt_succeeded (silent : LogsSilently handle) {program : Host A (Except VaultError α)} {value : α}
    (succeeded : (RpcM.attempt program).run.exec handle state = (some (.ok value), state')) :
    program.exec handle state = (some (.ok value), state') := by
  rw [exec_attempt silent] at succeeded
  obtain ⟨mapped, rfl⟩ := Prod.mk.inj succeeded
  obtain ⟨result, finished, converted⟩ := Option.map_eq_some_iff.mp mapped
  cases result with
  | ok other =>
      cases converted
      exact Prod.ext finished rfl
  | error error => contradiction

theorem exec_attempt_pure (silent : LogsSilently handle) (result : Except VaultError α) :
    (RpcM.attempt (pure result : Host A _)).run.exec handle state =
      (some (result.mapError VaultError.errorObject), state) := exec_attempt silent _

variable {γ : Type} {program : RpcM A α} {rest : α → RpcM A γ}

theorem exec_bind_ok {value : α} (first : program.run.exec handle state = (some (.ok value), state')) :
    (program >>= rest).run.exec handle state = (rest value).run.exec handle state' := by
  rw [ExceptT.run_bind, exec_bind_of_eq (congrArg Prod.fst first), congrArg Prod.snd first]

theorem exec_bind_error {error : ErrorObject}
    (first : program.run.exec handle state = (some (.error error), state')) :
    (program >>= rest).run.exec handle state = (some (.error error), state') := by
  rw [ExceptT.run_bind, exec_bind_of_eq (congrArg Prod.fst first), congrArg Prod.snd first]
  rfl

theorem exec_bind_succeeded {value : γ}
    (succeeded : (program >>= rest).run.exec handle state = (some (.ok value), state')) :
    ∃ middle state'', program.run.exec handle state = (some (.ok middle), state'') ∧
      (rest middle).run.exec handle state'' = (some (.ok value), state') := by
  cases first : program.run.exec handle state with
  | mk outcome state'' =>
      cases outcome with
      | none =>
          rw [ExceptT.run_bind, exec_bind_stuck (congrArg Prod.fst first)] at succeeded
          exact absurd (congrArg Prod.fst succeeded) nofun
      | some result =>
          cases result with
          | ok middle => exact ⟨middle, state'', rfl, exec_bind_ok first ▸ succeeded⟩
          | error error =>
              rw [exec_bind_error first] at succeeded
              exact absurd (congrArg Prod.fst succeeded) nofun

end Exec

end TariVault
