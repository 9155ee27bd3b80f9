import Mathlib.Logic.Function.Basic
import TariVault.Program.Interleaving
import TariVault.Storage.Transaction

namespace TariVault

open Program TariVault.System

/-! # The file system under the store

One vault file, one sidecar lock file distinct from it, a temporary file for each
call that is writing, and a mutex for each open store. Nothing fails here except
reading a file that is not there.
-/

/-- The vault file, if it exists, and the temporary file of each call. -/
structure Disk where
  vault : Option Bytes
  temps : Nat → Option Bytes

/-- What is in a temporary file after an operation of its call. -/
def FileOp.fill : FileOp → Option Bytes → Option Bytes
  | .newTemp, _ => some []
  | .writeAll bytes, written => written.map (· ++ bytes)
  | .persist, _ => none
  | .dropTemp, _ => none
  | _, written => written

namespace Disk

def setTemp (disk : Disk) (tid : Nat) (temp : Option Bytes) : Disk :=
  { disk with temps := Function.update disk.temps tid temp }

/-- What call `tid` does to the files; `none` where an operation is not about them
or cannot happen. -/
def apply (tid : Nat) (disk : Disk) : (op : FileOp) → Option (op.Answer × Disk)
  | .createDirAll => some (.ok (), disk)
  | .pathExists => some (disk.vault.isSome, disk)
  | .read =>
      match disk.vault with
      | some bytes => some (.ok bytes, disk)
      | none => some (.error "No such file or directory (os error 2)", disk)
  | .newTemp => some (.ok (), disk.setTemp tid (some []))
  | .writeAll bytes =>
      match disk.temps tid with
      | some written => some (.ok (), disk.setTemp tid (some (written ++ bytes)))
      | none => none
  | .flush => some (.ok (), disk)
  | .persist =>
      match disk.temps tid with
      | some written => some (.ok (), { disk.setTemp tid none with vault := some written })
      | none => none
  | .dropTemp => some ((), disk.setTemp tid none)
  | .setPermissions => some (.ok (), disk)
  | _ => none

/-- Only a rename changes the vault file. -/
theorem apply_vault {tid : Nat} {disk disk' : Disk} {op : FileOp} {answer : op.Answer}
    (keeping : op ≠ .persist) (applied : disk.apply tid op = some (answer, disk')) :
    disk'.vault = disk.vault := by
  unfold apply at applied
  split at applied
  · cases applied
    rfl
  · cases applied
    rfl
  · split at applied <;> cases applied <;> rfl
  · cases applied
    rfl
  · split at applied <;> cases applied
    rfl
  · cases applied
    rfl
  · contradiction
  · cases applied
    rfl
  · cases applied
    rfl
  · contradiction

/-- A call changes its own temporary file only, and the operation says to what. -/
theorem apply_temps {tid : Nat} {disk disk' : Disk} {op : FileOp} {answer : op.Answer}
    (applied : disk.apply tid op = some (answer, disk')) :
    disk'.temps = Function.update disk.temps tid (op.fill (disk.temps tid)) := by
  unfold apply at applied
  split at applied
  · cases applied
    exact (Function.update_eq_self ..).symm
  · cases applied
    exact (Function.update_eq_self ..).symm
  · split at applied <;> cases applied <;> exact (Function.update_eq_self ..).symm
  · cases applied
    rfl
  · split at applied
    · rename_i written
      cases applied
      rw [written]
      rfl
    · contradiction
  · cases applied
    exact (Function.update_eq_self ..).symm
  · split at applied <;> cases applied
    rfl
  · cases applied
    rfl
  · cases applied
    exact (Function.update_eq_self ..).symm
  · contradiction

end Disk

structure FileState where
  disk : Disk
  sidecar : Option Nat
  mutexes : Nat → Option Nat
  clock : DateTime

/-- What call `tid` gets for an operation; `none` while it has to wait. The calls
of a store draw no keys or ids. -/
def FileState.respond (tid : Nat) (state : FileState) :
    (op : HostOp FileOp) → Option (HostOp.Answer FileOp.Answer op × FileState)
  | .now => some (state.clock, state)
  | .log _ => some ((), state)
  | .storage (.lockProcess mutex) =>
      match state.mutexes mutex with
      | none => some ((), { state with mutexes := Function.update state.mutexes mutex (some tid) })
      | some _ => none
  -- Nothing happens when the mutex was released before.
  | .storage (.unlockProcess mutex) =>
      some ((), if state.mutexes mutex = some tid then
        { state with mutexes := Function.update state.mutexes mutex none } else state)
  | .storage .openLockFile => some (.ok (), state)
  | .storage .lockExclusive =>
      match state.sidecar with
      | none => some (.ok (), { state with sidecar := some tid })
      | some _ => none
  | .storage .unlock => some ((), { state with sidecar := none })
  | .storage op => (state.disk.apply tid op).map fun result => (result.1, { state with disk := result.2 })
  | _ => none

def FileState.idle (disk : Disk) (clock : DateTime) : FileState :=
  { disk, sidecar := none, mutexes := fun _ => none, clock }

/-- What a call does without the sidecar lock. -/
def Outside : HostOp FileOp → Prop
  | .now => True
  | .storage (.lockProcess _) => True
  | .storage (.unlockProcess _) => True
  | .storage .openLockFile => True
  | _ => False

/-- What a write of the vault file consists of. -/
def Writing : HostOp FileOp → Prop
  | .storage .newTemp => True
  | .storage (.writeAll _) => True
  | .storage .flush => True
  | .storage .persist => True
  | .storage .dropTemp => True
  | .storage .setPermissions => True
  | _ => False

/-- What only touches the vault file and the temporary file of the call. -/
def OnFiles : HostOp FileOp → Prop
  | .storage .read => True
  | .storage .newTemp => True
  | .storage (.writeAll _) => True
  | .storage .flush => True
  | .storage .persist => True
  | .storage .dropTemp => True
  | .storage .setPermissions => True
  | _ => False

theorem OnFiles.not_lockExclusive : ¬ OnFiles (.storage .lockExclusive) := id

theorem FileOp.lockExclusive_ne_unlock :
    (HostOp.storage FileOp.lockExclusive : HostOp FileOp) ≠ .storage .unlock := nofun

theorem Writing.onFiles {op : HostOp FileOp} (writing : Writing op) : OnFiles op := by
  unfold Writing at writing
  split at writing
  · trivial
  · trivial
  · trivial
  · trivial
  · trivial
  · trivial
  · contradiction

/-- The files alone, for calls that only touch them. -/
def Disk.handle (tid : Nat) (disk : Disk) :
    (op : HostOp FileOp) → Option (HostOp.Answer FileOp.Answer op × Disk)
  | .storage op => disk.apply tid op
  | _ => none

namespace FileState

variable {tid : Nat} {state state' : FileState} {op : HostOp FileOp}
  {answer : HostOp.Answer FileOp.Answer op}

theorem respond_outside (outside : Outside op)
    (performed : state.respond tid op = some (answer, state')) :
    state'.sidecar = state.sidecar ∧ state'.disk = state.disk := by
  cases op with
  | now =>
      cases performed
      exact ⟨rfl, rfl⟩
  | storage op =>
      cases op with
      | lockProcess mutex =>
          simp only [respond] at performed
          split at performed
          · cases performed
            exact ⟨rfl, rfl⟩
          · contradiction
      | unlockProcess mutex =>
          cases performed
          split <;> exact ⟨rfl, rfl⟩
      | openLockFile =>
          cases performed
          exact ⟨rfl, rfl⟩
      | _ => exact outside.elim
  | _ => exact outside.elim

theorem respond_eq_handle (onFiles : OnFiles op) : state.respond tid op =
    (state.disk.handle tid op).map fun result => (result.1, { state with disk := result.2 }) := by
  cases op with
  | storage op =>
      cases op with
      | read => rfl
      | newTemp => rfl
      | writeAll bytes => rfl
      | flush => rfl
      | persist => rfl
      | dropTemp => rfl
      | setPermissions => rfl
      | _ => exact onFiles.elim
  | _ => exact onFiles.elim

theorem respond_onFiles (onFiles : OnFiles op)
    (performed : state.respond tid op = some (answer, state')) :
    state'.sidecar = state.sidecar ∧ state.disk.handle tid op = some (answer, state'.disk) := by
  rw [respond_eq_handle onFiles] at performed
  obtain ⟨⟨answer', disk⟩, handled, same⟩ := Option.map_eq_some_iff.mp performed
  cases same
  exact ⟨rfl, handled⟩

theorem respond_lockExclusive {answer : Except String Unit}
    (performed : state.respond tid (.storage .lockExclusive) = some (answer, state')) :
    answer = .ok () ∧ state.sidecar = none ∧ state'.sidecar = some tid ∧
      state'.disk = state.disk := by
  simp only [respond] at performed
  split at performed
  · rename_i free
    cases performed
    exact ⟨rfl, free, rfl, rfl⟩
  · contradiction

theorem respond_sidecar (entering : op ≠ .storage .lockExclusive) (leaving : op ≠ .storage .unlock)
    (performed : state.respond tid op = some (answer, state')) : state'.sidecar = state.sidecar := by
  unfold respond at performed
  split at performed
  · cases performed
    rfl
  · cases performed
    rfl
  · split at performed <;> cases performed
    rfl
  · cases performed
    split <;> rfl
  · cases performed
    rfl
  · contradiction
  · contradiction
  · obtain ⟨_, _, same⟩ := Option.map_eq_some_iff.mp performed
    cases same
    rfl
  · contradiction

/-- The calls look at the files through `Disk.apply` only. -/
theorem respond_disk (performed : state.respond tid op = some (answer, state')) :
    (state'.disk = state.disk ∧ ∀ fileOp, op = .storage fileOp → ∀ written, fileOp.fill written = written) ∨
      ∃ fileOp fileAnswer, (⟨op, answer⟩ : Event (HostOp.Answer FileOp.Answer)) =
        ⟨.storage fileOp, fileAnswer⟩ ∧ state.disk.apply tid fileOp = some (fileAnswer, state'.disk) := by
  unfold respond at performed
  split at performed
  · cases performed
    exact .inl ⟨rfl, by simp⟩
  · cases performed
    exact .inl ⟨rfl, by simp⟩
  · split at performed <;> cases performed
    refine .inl ⟨rfl, fun fileOp same written => ?_⟩
    cases same
    rfl
  · cases performed
    refine .inl ⟨by split <;> rfl, fun fileOp same written => ?_⟩
    cases same
    rfl
  · cases performed
    refine .inl ⟨rfl, fun fileOp same written => ?_⟩
    cases same
    rfl
  · split at performed <;> cases performed
    refine .inl ⟨rfl, fun fileOp same written => ?_⟩
    cases same
    rfl
  · cases performed
    refine .inl ⟨rfl, fun fileOp same written => ?_⟩
    cases same
    rfl
  · obtain ⟨⟨_, _⟩, applied, same⟩ := Option.map_eq_some_iff.mp performed
    cases same
    exact .inr ⟨_, _, rfl, applied⟩
  · contradiction

theorem respond_persist {result : Except String Unit}
    (performed : state.respond tid (.storage .persist) = some (result, state')) :
    ∃ text, state.disk.temps tid = some text ∧ result = .ok () ∧ state'.disk.vault = some text := by
  cases written : state.disk.temps tid with
  | none => simp [respond, Disk.apply, written] at performed
  | some text =>
      simp only [respond, Disk.apply, written, Option.map_some, Option.some.injEq, Prod.mk.injEq] at performed
      obtain ⟨rfl, rfl⟩ := performed
      exact ⟨text, rfl, rfl, rfl⟩

theorem respond_vault (keeping : op ≠ .storage .persist)
    (performed : state.respond tid op = some (answer, state')) :
    state'.disk.vault = state.disk.vault := by
  rcases respond_disk performed with ⟨same, _⟩ | ⟨fileOp, fileAnswer, same, applied⟩
  · rw [same]
  · cases same
    exact Disk.apply_vault (fun same => keeping (congrArg _ same)) applied

/-- A program that only touches the files runs as it does on the files alone. -/
theorem run_onFiles {α : Type} {program : Host FileOp.Answer α} (within : program.Within OnFiles)
    (state : FileState) : program.run (respond tid) state =
      (program.run (Disk.handle tid) state.disk).map fun result =>
        (result.1, { state with disk := result.2 }) := by
  induction within generalizing state with
  | done value => rfl
  | @step op next here _ ih =>
      simp only [run, respond_eq_handle here]
      cases state.disk.handle tid op with
      | none => rfl
      | some result => exact ih result.1 _

end FileState

/-- What happens besides the calls: the clock moves, and the future that awaits a
call is dropped, which releases its mutex while its closure goes on. -/
inductive FileEnv where
  | tick (now : DateTime)
  | dropFuture (tid : Nat)

def FileState.drift (state : FileState) : FileEnv → FileState
  | .tick now => { state with clock := now }
  | .dropFuture tid =>
      { state with mutexes := fun mutex =>
          if state.mutexes mutex = some tid then none else state.mutexes mutex }

/-- Calls of any kind over the file system. -/
abbrev fileSystem {Call Result : Type} (code : Call → Host FileOp.Answer Result) :
    System (HostOp FileOp) (HostOp.Answer FileOp.Answer) where
  Call := Call
  Result := Result
  State := FileState
  Env := FileEnv
  code := code
  act tid state event state' := state.respond tid event.op = some (event.answer, state')
  drift state env state' := state' = state.drift env

/-- One operation on an open store. -/
structure FileCall where
  store : LocalFileStore
  op : BackendOp

/-- The answer of some operation. -/
abbrev BackendResult := Σ op : BackendOp, op.Answer

def BackendResult.Failed (result : BackendResult) : Prop := result.1.Failed result.2

def FileCall.code (serde : Serde) (call : FileCall) : Host FileOp.Answer BackendResult :=
  (fun answer => ⟨call.op, answer⟩) <$> (call.store.backend serde).perform call.op

end TariVault
