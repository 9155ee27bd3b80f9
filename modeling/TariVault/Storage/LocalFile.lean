import TariVault.Storage.Backend
import TariVault.Storage.DiskFormat

namespace TariVault

/-! # The file-backed store

Every operation takes the mutex of its store, then the lock of the sidecar file,
and works on the whole vault file. Each step of the file system is an operation
of its own, so that calls can interleave between any two of them and each of them
can fail.
-/

inductive FileOp where
  | createDirAll
  | pathExists
  | lockProcess (mutex : Nat)
  | unlockProcess (mutex : Nat)
  | openLockFile
  | lockExclusive
  | unlock
  | read
  | newTemp
  | writeAll (bytes : Bytes)
  | flush
  | persist
  | dropTemp
  | setPermissions
deriving DecidableEq

/-- Errors of the operating system are their messages. -/
abbrev FileOp.Answer : FileOp → Type
  | .pathExists => Bool
  | .lockProcess _ => Unit
  | .unlockProcess _ => Unit
  | .unlock => Unit
  | .dropTemp => Unit
  | .read => Except String Bytes
  | _ => Except String Unit

abbrev FileM := ExceptT StorageError (Host FileOp.Answer)

namespace FileM

def io {α : Type} (program : Host FileOp.Answer (Except String α)) : FileM α :=
  ExceptT.mk (Except.mapError .io <$> program)

def json {α : Type} (result : Except String α) : FileM α :=
  ExceptT.mk (pure (result.mapError .json))

/-- The temporary file is removed when it goes out of scope before it was renamed. -/
def orDropTemp {α : Type} (body : FileM α) : FileM α := ExceptT.mk do
  match ← body.run with
  | .ok value => return .ok value
  | .error error => do
      Host.storage FileOp.dropTemp
      return .error error

end FileM

/-- An open store: whether its path has a parent directory, and its mutex. -/
structure LocalFileStore where
  hasParent : Bool
  processLock : Nat

open FileM

variable (serde : Serde)

def fillAndPersist (state : DiskState) : FileM Unit := do
  let bytes ← json (state.toVecPretty serde)
  io (Host.storage (FileOp.writeAll bytes))
  io (Host.storage FileOp.flush)
  io (Host.storage FileOp.persist)

/-- Write to a temporary file, rename it over the vault file, then restrict its
permissions. -/
def writeAtomic (hasParent : Bool) (state : DiskState) : FileM Unit :=
  if hasParent then do
    io (Host.storage FileOp.newTemp)
    orDropTemp (fillAndPersist serde state)
    io (Host.storage FileOp.setPermissions)
  else throw (.io "vault path has no parent")

namespace LocalFileStore

/-- Open the vault file, or create it empty. The check and the write are separate
steps, and neither takes a lock. -/
def new (hasParent : Bool) : FileM Unit := do
  if hasParent then io (Host.storage FileOp.createDirAll)
  let found ← ExceptT.lift (Host.storage FileOp.pathExists)
  if found then pure () else writeAtomic serde hasParent ∅

def readState : FileM DiskState := do
  let content ← io (Host.storage FileOp.read)
  json (DiskState.fromSlice serde content)

/-- The blocking closure: lock the sidecar file, run, release. -/
def withFileLock {α : Type} (body : FileM α) : FileM α := do
  io (Host.storage FileOp.openLockFile)
  io (Host.storage FileOp.lockExclusive)
  ExceptT.mk do
    let result ← body.run
    Host.storage FileOp.unlock
    return result

variable (store : LocalFileStore)

/-- An operation holds the mutex of its store while its closure runs. `capture` is
what it reads before it spawns the closure. -/
def withProcessLock {κ α : Type} (capture : Host FileOp.Answer κ) (body : κ → FileM α) :
    Host FileOp.Answer (Except StorageError α) := do
  Host.storage (FileOp.lockProcess store.processLock)
  let captured ← capture
  let result ← (withFileLock (body captured)).run
  Host.storage (FileOp.unlockProcess store.processLock)
  return result

/-! What each closure does with the file. -/

def insertBody (recordId : RecordId) (record : StoredRecord) : FileM Unit := do
  let state ← readState serde
  writeAtomic serde store.hasParent (state.insert (Uuid.hyphenated recordId) record)

def fetchBody (recordId : RecordId) : FileM StoredRecord := do
  let state ← readState serde
  match state[Uuid.hyphenated recordId]? with
  | some record => return record
  | none => throw .notFound

def deleteBody (recordId : RecordId) : FileM Bool := do
  let state ← readState serde
  let existed := state.contains (Uuid.hyphenated recordId)
  if existed then writeAtomic serde store.hasParent (state.erase (Uuid.hyphenated recordId))
  return existed

def deleteExpiredBody (now : DateTime) : FileM Nat := do
  let state ← readState serde
  let kept := state.filter fun _ record => record.retainedAt now
  let removed := state.size - kept.size
  if 0 < removed then writeAtomic serde store.hasParent kept
  return removed

def insert (recordId : RecordId) (record : StoredRecord) :
    Host FileOp.Answer (Except StorageError Unit) :=
  store.withProcessLock (pure ()) fun _ => store.insertBody serde recordId record

def fetch (recordId : RecordId) : Host FileOp.Answer (Except StorageError StoredRecord) :=
  store.withProcessLock (pure ()) fun _ => fetchBody serde recordId

def delete (recordId : RecordId) : Host FileOp.Answer (Except StorageError Bool) :=
  store.withProcessLock (pure ()) fun _ => store.deleteBody serde recordId

def deleteExpired : Host FileOp.Answer (Except StorageError Nat) :=
  store.withProcessLock Host.now (store.deleteExpiredBody serde)

def backend : StorageBackend FileOp.Answer where
  insert := store.insert serde
  fetch := store.fetch serde
  delete := store.delete serde
  deleteExpired := store.deleteExpired serde

end LocalFileStore

namespace FileM

variable {σ α : Type}
  {handle : σ → (op : HostOp FileOp) → Option (HostOp.Answer FileOp.Answer op × σ)}
  {state state' state'' : σ}

theorem run_storage {op : FileOp} {answer : op.Answer}
    (answered : handle state (.storage op) = some (answer, state')) :
    (Host.storage op : Host FileOp.Answer op.Answer).run handle state = some (answer, state') := by
  rw [Host.storage, Program.perform, Program.run_step answered]
  rfl

theorem run_io {program : Host FileOp.Answer (Except String α)} {result : Except String α}
    (ran : program.run handle state = some (result, state')) :
    (io program).run.run handle state = some (result.mapError .io, state') := by
  rw [io, ExceptT.run_mk, Program.run_map, ran]
  rfl

theorem run_json {result : Except String α} :
    (json result).run.run handle state = some (result.mapError .json, state) := rfl

theorem run_orDropTemp_ok {body : FileM α} {value : α}
    (ran : body.run.run handle state = some (.ok value, state')) :
    (orDropTemp body).run.run handle state = some (.ok value, state') := by
  rw [orDropTemp, ExceptT.run_mk, Program.run_bind_of_eq ran]
  rfl

theorem run_orDropTemp_error {body : FileM α} {error : StorageError}
    (ran : body.run.run handle state = some (.error error, state'))
    (dropped : handle state' (.storage .dropTemp) = some ((), state'')) :
    (orDropTemp body).run.run handle state = some (.error error, state'') := by
  rw [orDropTemp, ExceptT.run_mk, Program.run_bind_of_eq ran]
  simp only
  rw [Program.run_bind_of_eq (run_storage dropped)]
  rfl

end FileM

end TariVault
