import TariVault.Domain.Record
import TariVault.Error
import TariVault.Program.Basic

namespace TariVault

/-! # The storage interface -/

/-- What a vault asks of the machine it runs on, besides storage operations
`β`. -/
inductive HostOp (β : Type) where
  | now
  | generateKey
  | generateNonce
  | newV4
  | log (line : String)
  | panic (message : String)
  | storage (op : β)
deriving DecidableEq

/-- Nothing answers a panic, so a program that panics goes no further. -/
abbrev HostOp.Answer {β : Type} (A : β → Type) : HostOp β → Type
  | .now => DateTime
  | .generateKey => EncryptionKey
  | .generateNonce => Nonce
  | .newV4 => RecordId
  | .log _ => Unit
  | .panic _ => Empty
  | .storage op => A op

abbrev Host {β : Type} (A : β → Type) := Program (HostOp β) (HostOp.Answer A)

namespace Host

variable {β : Type} {A : β → Type}

def now : Host A DateTime := Program.perform HostOp.now

def generateKey : Host A EncryptionKey := Program.perform HostOp.generateKey

def generateNonce : Host A Nonce := Program.perform HostOp.generateNonce

def newV4 : Host A RecordId := Program.perform HostOp.newV4

def log (line : String) : Host A Unit := Program.perform (HostOp.log line)

def panic {α : Type} (message : String) : Host A α := .step (HostOp.panic message) Empty.elim

def storage (op : β) : Host A (A op) := Program.perform (HostOp.storage op)

end Host

/-- The trait: four single-record operations over a backend's own steps. -/
structure StorageBackend {β : Type} (A : β → Type) where
  insert (recordId : RecordId) (record : StoredRecord) : Host A (Except StorageError Unit)
  fetch (recordId : RecordId) : Host A (Except StorageError StoredRecord)
  delete (recordId : RecordId) : Host A (Except StorageError Bool)
  deleteExpired : Host A (Except StorageError Nat)

inductive BackendOp where
  | insert (recordId : RecordId) (record : StoredRecord)
  | fetch (recordId : RecordId)
  | delete (recordId : RecordId)
  | deleteExpired
deriving DecidableEq

abbrev BackendOp.Answer : BackendOp → Type
  | .insert _ _ => Except StorageError Unit
  | .fetch _ => Except StorageError StoredRecord
  | .delete _ => Except StorageError Bool
  | .deleteExpired => Except StorageError Nat

def StorageBackend.perform {β : Type} {A : β → Type} (backend : StorageBackend A) :
    (op : BackendOp) → Host A op.Answer
  | .insert recordId record => backend.insert recordId record
  | .fetch recordId => backend.fetch recordId
  | .delete recordId => backend.delete recordId
  | .deleteExpired => backend.deleteExpired

/-- The answer of an operation that failed. -/
def BackendOp.failure (error : StorageError) : (op : BackendOp) → op.Answer
  | .insert _ _ => .error error
  | .fetch _ => .error error
  | .delete _ => .error error
  | .deleteExpired => .error error

def atomicBackend : StorageBackend BackendOp.Answer where
  insert recordId record := Host.storage (BackendOp.insert recordId record)
  fetch recordId := Host.storage (BackendOp.fetch recordId)
  delete recordId := Host.storage (BackendOp.delete recordId)
  deleteExpired := Host.storage BackendOp.deleteExpired

@[simp] theorem atomicBackend_insert (recordId : RecordId) (record : StoredRecord) :
    atomicBackend.insert recordId record =
      Program.perform (HostOp.storage (BackendOp.insert recordId record)) := rfl

@[simp] theorem atomicBackend_fetch (recordId : RecordId) :
    atomicBackend.fetch recordId = Program.perform (HostOp.storage (BackendOp.fetch recordId)) := rfl

@[simp] theorem atomicBackend_delete (recordId : RecordId) :
    atomicBackend.delete recordId =
      Program.perform (HostOp.storage (BackendOp.delete recordId)) := rfl

@[simp] theorem atomicBackend_deleteExpired :
    atomicBackend.deleteExpired = Program.perform (HostOp.storage BackendOp.deleteExpired) := rfl

end TariVault
