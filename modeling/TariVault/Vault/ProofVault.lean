import TariVault.Data.Uuid
import TariVault.Domain.ClaimId
import TariVault.Storage.Backend

namespace TariVault

/-- AES-256-GCM. Encryption fails on a plaintext that is too long, decryption on a
ciphertext whose tag does not verify. -/
structure Aead where
  encrypt (key : EncryptionKey) (nonce : Nonce) (plaintext : Bytes) : Option Bytes
  decrypt (key : EncryptionKey) (nonce : Nonce) (ciphertext : Bytes) : Option Bytes

namespace Aead

/-- Decryption under the right key returns the encrypted bytes. -/
def Opens (aead : Aead) : Prop :=
  ∀ key nonce plaintext ciphertext, aead.encrypt key nonce plaintext = some ciphertext →
    aead.decrypt key nonce ciphertext = some plaintext

/-- Decryption under another key fails. -/
def RejectsOtherKeys (aead : Aead) : Prop :=
  ∀ key other nonce plaintext ciphertext, aead.encrypt key nonce plaintext = some ciphertext →
    other ≠ key → aead.decrypt other nonce ciphertext = none

/-- A stand-in for concrete runs: the ciphertext names its key. -/
def keyed : Aead where
  encrypt key _ plaintext := some (key.bytes ++ plaintext)
  decrypt key _ ciphertext :=
    if ciphertext.take 32 = key.bytes then some (ciphertext.drop 32) else none

theorem keyed_opens : keyed.Opens := by
  intro key nonce plaintext ciphertext encrypted
  cases encrypted
  simp [keyed, List.take_left' key.length_eq, List.drop_left' key.length_eq]

theorem keyed_rejectsOtherKeys : keyed.RejectsOtherKeys := by
  intro key other nonce plaintext ciphertext encrypted different
  cases encrypted
  have otherBytes : key.bytes ≠ other.bytes := fun same => different (FixedBytes.ext same.symm)
  simp [keyed, List.take_left' key.length_eq, otherBytes]

end Aead

variable {β : Type} {A : β → Type}

abbrev VaultM (A : β → Type) := ExceptT VaultError (Host A)

namespace VaultM

/-- An operation of the machine, which cannot fail. -/
def host {α : Type} (program : Host A α) : VaultM A α := ExceptT.lift program

/-- The `?` operator on a storage operation, with its error conversion. -/
def attempt {α : Type} (convert : StorageError → VaultError)
    (program : Host A (Except StorageError α)) : VaultM A α :=
  ExceptT.mk (Except.mapError convert <$> program)

end VaultM

open VaultM

/-- Reads the clock only when there is an expiry to compare with. -/
def StoredRecord.isExpired (record : StoredRecord) : Host A Bool :=
  match record.expiresAt with
  | some expiry => do
      let now ← Host.now
      return decide (expiry < now)
  | none => return false

def i64Max : Nat := 9223372036854775807

/-- `Utc::now() + Duration::seconds(secs)` for a requested number of seconds. -/
def expiryAfter (expiresInSecs : Option UInt64) : VaultM A (Option DateTime) :=
  match expiresInSecs with
  | none => return none
  | some secs =>
      if i64Max < secs.toNat then
        throw (.invalidParameter "expires_in_secs value is too large")
      else do
        let now ← host Host.now
        match Duration.seconds? secs.toNat with
        | none => host (Host.panic "TimeDelta::seconds out of bounds")
        | some duration =>
            match now.add? duration with
            | none => host (Host.panic "`DateTime + TimeDelta` overflowed")
            | some expiry => return some expiry

/-- What both lookups do with an expired record: delete it, log, and refuse. -/
def refuseExpired {α : Type} (storage : StorageBackend A) (recordId : RecordId) (notice : String) :
    VaultM A α := do
  match ← host (storage.delete recordId) with
  | .ok _ => pure ()
  | .error error =>
      host (Host.log ("Failed to delete expired record " ++ Uuid.simple recordId ++
        "; storage error: " ++ error.toString))
  host (Host.log (notice ++ Uuid.simple recordId))
  throw .proofExpired

/-- How both lookups start: fetch the record and go on only if it has not
expired. -/
def withLiveRecord {α : Type} (storage : StorageBackend A) (recordId : RecordId) (notice : String)
    (use : StoredRecord → VaultM A α) : VaultM A α := do
  let stored ← attempt .ofFetch (storage.fetch recordId)
  if ← host stored.isExpired then refuseExpired storage recordId notice else use stored

/-- The trait: what a server needs of a vault. -/
structure ProofVault (A : β → Type) where
  storeProof (proof : PlaintextProof) (expiresInSecs : Option UInt64) : VaultM A String
  retrieveProof (claimIdStr : String) : VaultM A PlaintextProof
  cleanup : VaultM A Nat
  deleteProof (claimIdStr : String) : VaultM A Unit

namespace StandardVault

variable (storage : StorageBackend A) (aead : Aead)

def storeProof (proof : PlaintextProof) (expiresInSecs : Option UInt64) : VaultM A String :=
  if expiresInSecs = some 0 then
    throw (.invalidParameter "expires_in_secs must be greater than zero")
  else do
    let generatedKey ← host Host.generateKey
    let nonce ← host Host.generateNonce
    match aead.encrypt generatedKey nonce proof.data with
    | none => throw .decryptionFailed
    | some ciphertext => do
        let recordId ← host Host.newV4
        let claimId : ClaimId := { recordId, encryptionKey := generatedKey }
        let expiresAt ← expiryAfter expiresInSecs
        let storedAt ← host Host.now
        attempt .storage (storage.insert recordId
          { encrypted := { nonce := nonce.bytes, ciphertext }, storedAt, expiresAt })
        host (Host.log ("Proof stored; record_id=" ++ Uuid.simple recordId))
        return claimId.encode

/-- Decrypt a live record, delete it, and only then release the plaintext. -/
def consume (claimId : ClaimId) (stored : StoredRecord) : VaultM A PlaintextProof :=
  if stored.encrypted.nonce.length ≠ 12 then throw .decryptionFailed
  else
    match FixedBytes.ofBytes? 12 stored.encrypted.nonce with
    | none => host (Host.panic "Nonce::from_slice: wrong length")
    | some nonce =>
        match aead.decrypt claimId.encryptionKey nonce stored.encrypted.ciphertext with
        | none => throw .decryptionFailed
        | some plaintext => do
            -- The answer, whether a record was there to delete, is dropped.
            let _ ← attempt .storage (storage.delete claimId.recordId)
            host (Host.log ("Proof retrieved and consumed; record_id=" ++
              Uuid.simple claimId.recordId))
            return .fromBytes plaintext

def retrieveProof (claimIdStr : String) : VaultM A PlaintextProof :=
  match ClaimId.decode claimIdStr with
  | .error error => throw error
  | .ok claimId =>
      withLiveRecord storage claimId.recordId "Expired proof access attempt; record_id="
        (consume storage aead claimId)

def cleanup : VaultM A Nat := do
  let removed ← attempt .storage storage.deleteExpired
  if 0 < removed then
    host (Host.log ("Cleanup sweep removed " ++ toString removed ++ " expired proof(s)"))
  return removed

/-- Delete a live record. The key of the claim plays no part. -/
def cancel (claimId : ClaimId) (_stored : StoredRecord) : VaultM A Unit := do
  let deleted ← attempt .storage (storage.delete claimId.recordId)
  if deleted then
    host (Host.log ("Proof explicitly deleted by holder; record_id=" ++
      Uuid.simple claimId.recordId))
  else throw .proofNotFound

def deleteProof (claimIdStr : String) : VaultM A Unit :=
  match ClaimId.decode claimIdStr with
  | .error error => throw error
  | .ok claimId =>
      withLiveRecord storage claimId.recordId "Delete attempt on expired proof; record_id="
        (cancel storage claimId)

def vault : ProofVault A where
  storeProof := storeProof storage aead
  retrieveProof := retrieveProof storage aead
  cleanup := cleanup storage
  deleteProof := deleteProof storage

end StandardVault

end TariVault
