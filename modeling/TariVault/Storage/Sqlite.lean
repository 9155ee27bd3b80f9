import TariVault.Data.Rfc3339
import TariVault.Storage.Sequence

namespace TariVault

open Program

/-! # The SQLite store

One table keyed by the record id, whose timestamps are RFC 3339 text. Every
operation is one statement on the connection, under the connection's mutex.
-/

/-- A row of `proofs`, without its key. -/
structure Row where
  nonce : Bytes
  ciphertext : Bytes
  storedAt : String
  expiresAt : Option String
deriving DecidableEq

inductive SqlError where
  | queryReturnedNoRows
  | other (message : String)
deriving DecidableEq

/-- The statements, with their parameters. -/
inductive SqlOp where
  | lock
  | unlock
  | insertOrReplace (recordId : RecordId) (row : Row)
  | selectRow (recordId : RecordId)
  | deleteRow (recordId : RecordId)
  | deleteRowsUpTo (now : String)
deriving DecidableEq

/-- The error of `lock` says that the mutex is poisoned. Statements that change the
table answer how many rows they changed. -/
abbrev SqlOp.Answer : SqlOp → Type
  | .lock => Except String Unit
  | .unlock => Unit
  | .insertOrReplace _ _ => Except String Nat
  | .selectRow _ => Except SqlError Row
  | .deleteRow _ => Except String Nat
  | .deleteRowsUpTo _ => Except String Nat

/-- What the store uses of chrono. -/
structure Chrono where
  toRfc3339 : DateTime → String
  parseFromRfc3339 : String → Except String DateTime

/-- The domain of RFC 3339. -/
def DateTime.FourDigits (time : DateTime) : Prop := 0 ≤ time.year ∧ time.year ≤ 9999

instance (time : DateTime) : Decidable time.FourDigits :=
  inferInstanceAs (Decidable (_ ∧ _))

/-- Timestamps are written with a sign before longer years, and only years of four
digits are read back. -/
structure Chrono.Documented (chrono : Chrono) : Prop where
  prints : ∀ time, chrono.toRfc3339 time = Rfc3339.text Rfc3339.utc time
  reads : ∀ time, time.FourDigits → chrono.parseFromRfc3339 (chrono.toRfc3339 time) = .ok time
  refuses : ∀ time, ¬ time.FourDigits →
    ∃ message, chrono.parseFromRfc3339 (chrono.toRfc3339 time) = .error message

def Chrono.concrete : Chrono where
  toRfc3339 := Rfc3339.text Rfc3339.utc
  parseFromRfc3339 text :=
    match Rfc3339.ofText? text with
    | some time => if time.FourDigits then .ok time else .error "input contains invalid characters"
    | none => .error "input contains invalid characters"

theorem Chrono.concrete_documented : Chrono.concrete.Documented where
  prints time := rfl
  reads time fourDigits := by
    simp only [concrete, Rfc3339.ofText?_text (.inr rfl), Rfc3339.utc, if_pos fourDigits]
  refuses time signed := by
    simp only [concrete, Rfc3339.utc, Rfc3339.ofText?_text (.inr rfl), if_neg signed]
    exact ⟨_, rfl⟩

abbrev SqlM := ExceptT StorageError (Host SqlOp.Answer)

namespace SqlM

/-- `.map_err(db_error)?` -/
def execute {α : Type} (program : Host SqlOp.Answer (Except String α)) : SqlM α :=
  ExceptT.mk (Except.mapError .io <$> program)

/-- The blocking closure: lock the connection, run, release. -/
def withConnection {α : Type} (body : SqlM α) : Host SqlOp.Answer (Except StorageError α) := do
  match ← Host.storage SqlOp.lock with
  | .error message => return .error (.io ("mutex poisoned: " ++ message))
  | .ok _ => do
      let result ← body.run
      Host.storage SqlOp.unlock
      return result

end SqlM

open SqlM

namespace SqliteStore

variable (chrono : Chrono)

def rowOf (record : StoredRecord) : Row where
  nonce := record.encrypted.nonce
  ciphertext := record.encrypted.ciphertext
  storedAt := chrono.toRfc3339 record.storedAt
  expiresAt := record.expiresAt.map chrono.toRfc3339

def parseDatetime (text : String) : Except StorageError DateTime :=
  match chrono.parseFromRfc3339 text with
  | .ok time => .ok time
  | .error message => .error (.io ("invalid datetime '" ++ text ++ "': " ++ message))

/-- What a fetch makes of the row it found. -/
def recordOf (row : Row) : Except StorageError StoredRecord := do
  let storedAt ← parseDatetime chrono row.storedAt
  let expiresAt ← match row.expiresAt with
    | some text => some <$> parseDatetime chrono text
    | none => pure none
  return { encrypted := { nonce := row.nonce, ciphertext := row.ciphertext }, storedAt, expiresAt }

def insert (recordId : RecordId) (record : StoredRecord) :
    Host SqlOp.Answer (Except StorageError Unit) :=
  withConnection do
    let _ ← execute (Host.storage (SqlOp.insertOrReplace recordId (rowOf chrono record)))

def fetch (recordId : RecordId) : Host SqlOp.Answer (Except StorageError StoredRecord) :=
  withConnection do
    match ← ExceptT.lift (Host.storage (SqlOp.selectRow recordId)) with
    | .ok row => ExceptT.mk (pure (recordOf chrono row))
    | .error .queryReturnedNoRows => throw .notFound
    | .error (.other message) => throw (.io message)

def delete (recordId : RecordId) : Host SqlOp.Answer (Except StorageError Bool) :=
  withConnection do
    let count ← execute (Host.storage (SqlOp.deleteRow recordId))
    return decide (0 < count)

/-- The clock is read, and printed, before the closure is spawned. -/
def deleteExpired : Host SqlOp.Answer (Except StorageError Nat) := do
  let now ← Host.now
  withConnection (execute (Host.storage (SqlOp.deleteRowsUpTo (chrono.toRfc3339 now))))

def backend : StorageBackend SqlOp.Answer where
  insert := insert chrono
  fetch := fetch chrono
  delete := delete
  deleteExpired := deleteExpired chrono

end SqliteStore

abbrev Table := Std.ExtTreeMap RecordId Row

/-- `expires_at IS NOT NULL AND expires_at <= now`, on texts. -/
def Row.dueBy (now : String) (row : Row) : Bool :=
  match row.expiresAt with
  | some expiry => decide (utf8 expiry ≤ utf8 now)
  | none => false

namespace Table

/-- A statement on the table, which does not fail. -/
def apply (table : Table) : (op : SqlOp) → op.Answer × Table
  | .lock => (.ok (), table)
  | .unlock => ((), table)
  | .insertOrReplace recordId row => (.ok 1, table.insert recordId row)
  | .selectRow recordId =>
      (match table[recordId]? with
        | some row => .ok row
        | none => .error .queryReturnedNoRows, table)
  | .deleteRow recordId => (.ok (if table.contains recordId then 1 else 0), table.erase recordId)
  | .deleteRowsUpTo now =>
      (.ok (table.filter fun _ row => row.dueBy now).size,
        table.filter fun _ row => !row.dueBy now)

def handle (now : DateTime) (table : Table) :
    (op : HostOp SqlOp) → Option (HostOp.Answer SqlOp.Answer op × Table)
  | .now => some (now, table)
  | .storage op => some (table.apply op)
  | _ => none

end Table

/-- The store, with one whole operation after the other. -/
def SqliteStore.step (chrono : Chrono) (table : Table) (timed : TimedOp) :
    Option (BackendResult × Table) :=
  (((SqliteStore.backend chrono).perform timed.op).run (Table.handle timed.now) table).map fun result =>
    (⟨timed.op, result.1⟩, result.2)

namespace SqliteStore

variable {chrono : Chrono} {table : Table} {now : DateTime}

theorem step_deleteExpired : step chrono table ⟨now, .deleteExpired⟩ =
    some (⟨.deleteExpired, .ok (table.filter fun _ row => row.dueBy (chrono.toRfc3339 now)).size⟩,
      table.filter fun _ row => !row.dueBy (chrono.toRfc3339 now)) := rfl

theorem step_insert {recordId : RecordId} {record : StoredRecord} :
    step chrono table ⟨now, .insert recordId record⟩ =
      some (⟨.insert recordId record, .ok ()⟩, table.insert recordId (rowOf chrono record)) := rfl

theorem step_fetch {recordId : RecordId} : step chrono table ⟨now, .fetch recordId⟩ =
    some (⟨.fetch recordId, match table[recordId]? with
      | some row => recordOf chrono row
      | none => .error .notFound⟩, table) := by
  cases found : table[recordId]? with
  | none =>
      simp [step, StorageBackend.perform, backend, fetch, withConnection, Host.storage, run,
        Table.handle, Table.apply, found]
  | some row =>
      simp [step, StorageBackend.perform, backend, fetch, withConnection, Host.storage, run,
        Table.handle, Table.apply, found]

theorem step_delete {recordId : RecordId} : step chrono table ⟨now, .delete recordId⟩ =
    some (⟨.delete recordId, .ok (table.contains recordId)⟩, table.erase recordId) := by
  have ran : step chrono table ⟨now, .delete recordId⟩ =
      some (⟨.delete recordId, .ok (decide (0 < if table.contains recordId then 1 else 0))⟩,
        table.erase recordId) := rfl
  rw [ran]
  cases table.contains recordId <;> rfl

end SqliteStore

end TariVault
