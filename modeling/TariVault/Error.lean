namespace TariVault

inductive StorageError where
  | io (message : String)
  | json (message : String)
  | notFound
deriving DecidableEq, Repr

inductive VaultError where
  | proofNotFound
  | proofExpired
  | decryptionFailed
  | invalidClaimId
  | invalidParameter (message : String)
  | storage (error : StorageError)
  | serialization (message : String)
deriving DecidableEq, Repr

protected def StorageError.toString : StorageError → String
  | .io message => "I/O error: " ++ message
  | .json message => "JSON error: " ++ message
  | .notFound => "Record not found"

protected def VaultError.toString : VaultError → String
  | .proofNotFound => "Proof not found"
  | .proofExpired => "Proof has expired"
  | .decryptionFailed => "Decryption failed"
  | .invalidClaimId => "Invalid claim ID format"
  | .invalidParameter message => "Invalid parameter: " ++ message
  | .storage error => "Storage error: " ++ error.toString
  | .serialization message => "Serialization error: " ++ message

def VaultError.rpcCode : VaultError → Int
  | .proofNotFound => -32001
  | .proofExpired => -32002
  | .invalidClaimId => -32003
  | .decryptionFailed => -32004
  | .invalidParameter _ => -32006
  | .storage _ => -32005
  | .serialization _ => -32005

/-- The conversion of a failed lookup: absence has its own error. -/
def VaultError.ofFetch : StorageError → VaultError
  | .notFound => .proofNotFound
  | other => .storage other

end TariVault
