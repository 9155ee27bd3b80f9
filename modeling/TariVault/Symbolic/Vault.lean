import TariVault.Symbolic.Derivation
import TariVault.Vault.ProofVault

namespace TariVault.Symbolic

/-! # The vault on terms

The functions of the vault, on keys, nonces, ids, payloads, times and texts as atoms,
with claim strings as pairs and ciphertexts as encryptions. Log lines and errors are
terms too, made of what the source puts into them.
-/

inductive Atom where
  | key (value : EncryptionKey)
  | nonce (value : Nonce)
  | recordId (value : RecordId)
  | payload (data : Bytes)
  | time (value : DateTime)
  | text (value : String)
deriving DecidableEq

abbrev Message := Term Atom

def text (value : String) : Message := .atom (.text value)

/-- A record id as `Uuid::simple` writes it. -/
def simple (recordId : RecordId) : Message := .atom (.recordId recordId)

structure SealedRecord where
  nonce : Message
  ciphertext : Message
  storedAt : DateTime
  expiresAt : Option DateTime

def expiryMessage : Option DateTime → Message
  | none => text "null"
  | some expiry => .atom (.time expiry)

def SealedRecord.message (record : SealedRecord) : Message :=
  .pair (.pair record.nonce record.ciphertext) (.pair (.atom (.time record.storedAt)) (expiryMessage record.expiresAt))

inductive StorageFailure where
  | io (message : Message)
  | json (message : Message)
  | notFound

def StorageFailure.message : StorageFailure → Message
  | .io message => .pair (text "I/O error: ") message
  | .json message => .pair (text "JSON error: ") message
  | .notFound => text "Record not found"

inductive VaultFailure where
  | proofNotFound
  | proofExpired
  | decryptionFailed
  | invalidClaimId
  | invalidParameter (message : Message)
  | storage (failure : StorageFailure)
  | serialization (message : Message)

namespace VaultFailure

def message : VaultFailure → Message
  | .proofNotFound => text "Proof not found"
  | .proofExpired => text "Proof has expired"
  | .decryptionFailed => text "Decryption failed"
  | .invalidClaimId => text "Invalid claim ID format"
  | .invalidParameter message => .pair (text "Invalid parameter: ") message
  | .storage failure => .pair (text "Storage error: ") failure.message
  | .serialization message => .pair (text "Serialization error: ") message

def ofFetch : StorageFailure → VaultFailure
  | .notFound => .proofNotFound
  | other => .storage other

end VaultFailure

/-- The storage operations, and the log. -/
inductive Request where
  | insert (recordId : RecordId) (record : SealedRecord)
  | fetch (recordId : RecordId)
  | delete (recordId : RecordId)
  | deleteExpired
  | log (line : Message)

abbrev Request.Answer : Request → Type
  | .insert _ _ => Except StorageFailure Unit
  | .fetch _ => Except StorageFailure SealedRecord
  | .delete _ => Except StorageFailure Bool
  | .deleteExpired => Except StorageFailure Nat
  | .log _ => Unit

/-- What an operation writes to the backend or to the log. -/
def Request.message : Request → Message
  | .insert recordId record => .pair (simple recordId) record.message
  | .fetch recordId => simple recordId
  | .delete recordId => simple recordId
  | .deleteExpired => text "delete expired"
  | .log line => line

/-- What leaves the vault with an operation. -/
def outgoing : HostOp Request → Message
  | .log line => text line
  | .panic message => text message
  | .storage request => request.message
  | _ => text ""

/-- The failure that an operation answered with. -/
def failureOf : (request : Request) → request.Answer → Option StorageFailure
  | .insert _ _, .error failure => some failure
  | .fetch _, .error failure => some failure
  | .delete _, .error failure => some failure
  | .deleteExpired, .error failure => some failure
  | _, _ => none

abbrev SymbolicM := ExceptT VaultFailure (Host Request.Answer)

namespace SymbolicM

def host {α : Type} (program : Host Request.Answer α) : SymbolicM α := ExceptT.lift program

def attempt {α : Type} (convert : StorageFailure → VaultFailure)
    (program : Host Request.Answer (Except StorageFailure α)) : SymbolicM α :=
  ExceptT.mk (Except.mapError convert <$> program)

def log (line : Message) : SymbolicM Unit := host (Host.storage (Request.log line))

end SymbolicM

open SymbolicM

/-- Encryption fails on a plaintext that is too long. -/
def encrypt (accepts : Message → Bool) (key : EncryptionKey) (nonce : Nonce) (plaintext : Message) : Option Message :=
  if accepts plaintext then some (.enc (.atom (.key key)) (.atom (.nonce nonce)) plaintext) else none

def decrypt (key : EncryptionKey) (nonce : Nonce) : Message → Option Message
  | .enc withKey withNonce plaintext =>
      if withKey = .atom (.key key) ∧ withNonce = .atom (.nonce nonce) then some plaintext else none
  | _ => none

def encodeClaim (claimId : ClaimId) : Message :=
  .pair (.atom (.recordId claimId.recordId)) (.atom (.key claimId.encryptionKey))

def decodeClaim : Message → Except VaultFailure ClaimId
  | .pair (.atom (.recordId recordId)) (.atom (.key encryptionKey)) => .ok { recordId, encryptionKey }
  | _ => .error .invalidClaimId

theorem decrypt_eq_some {key : EncryptionKey} {nonce : Nonce} {ciphertext plaintext : Message}
    (decrypted : decrypt key nonce ciphertext = some plaintext) :
    ciphertext = .enc (.atom (.key key)) (.atom (.nonce nonce)) plaintext := by
  unfold decrypt at decrypted
  split at decrypted
  · obtain ⟨⟨rfl, rfl⟩, same⟩ := Option.ite_none_right_eq_some.mp decrypted
    cases same
    rfl
  · contradiction

theorem eq_encodeClaim {claim : Message} {claimId : ClaimId} (decoded : decodeClaim claim = .ok claimId) :
    claim = encodeClaim claimId := by
  unfold decodeClaim at decoded
  split at decoded
  · cases decoded
    rfl
  · contradiction

def SealedRecord.isExpired (record : SealedRecord) : Host Request.Answer Bool :=
  match record.expiresAt with
  | some expiry => do
      let now ← Host.now
      return decide (expiry < now)
  | none => return false

namespace SymbolicVault

def expiryAfter (expiresInSecs : Option UInt64) : SymbolicM (Option DateTime) :=
  match expiresInSecs with
  | none => return none
  | some secs =>
      if i64Max < secs.toNat then
        throw (.invalidParameter (text "expires_in_secs value is too large"))
      else do
        let now ← host Host.now
        match Duration.seconds? secs.toNat with
        | none => host (Host.panic "TimeDelta::seconds out of bounds")
        | some duration =>
            match now.add? duration with
            | none => host (Host.panic "`DateTime + TimeDelta` overflowed")
            | some expiry => return some expiry

def refuseExpired {α : Type} (recordId : RecordId) (notice : String) : SymbolicM α := do
  match ← host (Host.storage (Request.delete recordId)) with
  | .ok _ => pure ()
  | .error failure =>
      log (.pair (text "Failed to delete expired record ") (.pair (simple recordId)
        (.pair (text "; storage error: ") failure.message)))
  log (.pair (text notice) (simple recordId))
  throw .proofExpired

def withLiveRecord {α : Type} (recordId : RecordId) (notice : String) (use : SealedRecord → SymbolicM α) :
    SymbolicM α := do
  let stored ← attempt .ofFetch (Host.storage (Request.fetch recordId))
  if ← host stored.isExpired then refuseExpired recordId notice else use stored

def storeProof (accepts : Message → Bool) (proof : Message) (expiresInSecs : Option UInt64) : SymbolicM Message :=
  if expiresInSecs = some 0 then
    throw (.invalidParameter (text "expires_in_secs must be greater than zero"))
  else do
    let generatedKey ← host Host.generateKey
    let nonce ← host Host.generateNonce
    match encrypt accepts generatedKey nonce proof with
    | none => throw .decryptionFailed
    | some ciphertext => do
        let recordId ← host Host.newV4
        let claimId : ClaimId := { recordId, encryptionKey := generatedKey }
        let expiresAt ← expiryAfter expiresInSecs
        let storedAt ← host Host.now
        attempt .storage (Host.storage (Request.insert recordId
          { nonce := .atom (.nonce nonce), ciphertext, storedAt, expiresAt }))
        log (.pair (text "Proof stored; record_id=") (simple recordId))
        return encodeClaim claimId

def consume (claimId : ClaimId) (stored : SealedRecord) : SymbolicM Message :=
  match stored.nonce with
  | .atom (.nonce nonce) =>
      match decrypt claimId.encryptionKey nonce stored.ciphertext with
      | none => throw .decryptionFailed
      | some plaintext => do
          let _ ← attempt .storage (Host.storage (Request.delete claimId.recordId))
          log (.pair (text "Proof retrieved and consumed; record_id=") (simple claimId.recordId))
          return plaintext
  -- Not twelve bytes.
  | _ => throw .decryptionFailed

def retrieveProof (claim : Message) : SymbolicM Message :=
  match decodeClaim claim with
  | .error failure => throw failure
  | .ok claimId =>
      withLiveRecord claimId.recordId "Expired proof access attempt; record_id=" (consume claimId)

def cleanup : SymbolicM Nat := do
  let removed ← attempt .storage (Host.storage Request.deleteExpired)
  if 0 < removed then
    log (.pair (text "Cleanup sweep removed ") (.pair (text (toString removed)) (text " expired proof(s)")))
  return removed

def cancel (claimId : ClaimId) (_stored : SealedRecord) : SymbolicM Unit := do
  let deleted ← attempt .storage (Host.storage (Request.delete claimId.recordId))
  if deleted then
    log (.pair (text "Proof explicitly deleted by holder; record_id=") (simple claimId.recordId))
  else throw .proofNotFound

def deleteProof (claim : Message) : SymbolicM Unit :=
  match decodeClaim claim with
  | .error failure => throw failure
  | .ok claimId =>
      withLiveRecord claimId.recordId "Delete attempt on expired proof; record_id=" (cancel claimId)

end SymbolicVault

inductive Call where
  | storeProof (proof : Message) (expiresInSecs : Option UInt64)
  | retrieveProof (claim : Message)
  | deleteProof (claim : Message)
  | cleanup

inductive Reply where
  | claim (token : Message)
  | proof (plaintext : Message)
  | deleted
  | removed (count : Nat)

def Reply.message : Reply → Message
  | .claim token => token
  | .proof plaintext => plaintext
  | .deleted => text "null"
  | .removed count => text (toString count)

/-- What the caller passes in. -/
def Call.message : Call → Message
  | .storeProof proof _ => proof
  | .retrieveProof claim => claim
  | .deleteProof claim => claim
  | .cleanup => text "cleanup"

def Call.code (accepts : Message → Bool) : Call → Host Request.Answer (Except VaultFailure Reply)
  | .storeProof proof expiresInSecs => Except.map .claim <$> (SymbolicVault.storeProof accepts proof expiresInSecs).run
  | .retrieveProof claim => Except.map .proof <$> (SymbolicVault.retrieveProof claim).run
  | .deleteProof claim => Except.map (fun _ => .deleted) <$> (SymbolicVault.deleteProof claim).run
  | .cleanup => Except.map .removed <$> SymbolicVault.cleanup.run

end TariVault.Symbolic
