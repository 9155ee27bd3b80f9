import TariVault.Program.Landing
import TariVault.Storage.Failure
import TariVault.Vault.Concurrent
import TariVault.Vault.Lowering

namespace TariVault

open Program TariVault.System

/-! # Vault calls of many processes over one vault file

Any number of processes, each with its own open store, serve vault calls from the
same vault file. The calls interleave at every step of the file system. Any of these
steps may fail, the future of a call may be dropped, and a process may be killed,
which stops its calls where they are and releases their locks.
-/

structure HostState where
  files : FileState
  /-- Every value the clock has shown. -/
  readings : List DateTime
  drawn : List RecordId
  /-- The calls that were killed. -/
  stopped : List Nat

/-- The vault file exists, and nothing has happened yet. -/
def HostState.opened (bytes : Bytes) (clock : DateTime) : HostState where
  files := .idle ⟨some bytes, fun _ => none⟩ clock
  readings := [clock]
  drawn := []
  stopped := []

inductive HostAct (tid : Nat) : HostState → Event (HostOp.Answer FileOp.Answer) → HostState → Prop where
  | respond {state op answer files} (alive : tid ∉ state.stopped)
      (performed : state.files.respond tid op = some (answer, files)) :
      HostAct tid state ⟨op, answer⟩ { state with files }
  -- A failing write may have written a part.
  | fail {state : HostState} {op message answer} (length : Nat) (alive : tid ∉ state.stopped)
      (fails : op.failed message = some answer) :
      HostAct tid state ⟨.storage op, answer⟩
        { state with files := { state.files with disk := state.files.disk.interrupted tid length op } }
  | generateKey {state : HostState} (key : EncryptionKey) (alive : tid ∉ state.stopped) :
      HostAct tid state ⟨.generateKey, key⟩ state
  | generateNonce {state : HostState} (nonce : Nonce) (alive : tid ∉ state.stopped) :
      HostAct tid state ⟨.generateNonce, nonce⟩ state
  | newV4 {state : HostState} {recordId : RecordId} (alive : tid ∉ state.stopped)
      (fresh : recordId ∉ state.drawn) :
      HostAct tid state ⟨.newV4, recordId⟩ { state with drawn := recordId :: state.drawn }

inductive HostEnv where
  | tick (now : DateTime)
  | dropFuture (tid : Nat)
  | kill (victims : List Nat)

def HostState.drift (state : HostState) : HostEnv → HostState
  | .tick now => { state with files := state.files.drift (.tick now), readings := now :: state.readings }
  | .dropFuture tid => { state with files := state.files.drift (.dropFuture tid) }
  | .kill victims =>
      { state with
        files := { state.files with
          sidecar := state.files.sidecar.filter (· ∉ victims)
          mutexes := fun mutex => (state.files.mutexes mutex).filter (· ∉ victims) }
        stopped := victims ++ state.stopped }

/-- A vault call, served from an open store. -/
structure FileVaultCall where
  store : LocalFileStore
  call : VaultCall

/-- Vault calls over the steps of the file system, and over single storage
operations. -/
abbrev fileVaults (serde : Serde) (aead : Aead) :
    Realisation (vaultSystem aead) (HostOp FileOp) (HostOp.Answer FileOp.Answer) where
  Call := FileVaultCall
  State := HostState
  Env := HostEnv
  abstract := FileVaultCall.call
  lower call := (call.store.backend serde).lower
  code call := call.call.program (call.store.backend serde) aead
  code_eq call := call.call.program_eq (call.store.backend serde) aead
  act := HostAct
  drift state env state' := state' = state.drift env

/-- A step of call `tid` that other calls do not notice. -/
structure Unnoticed (tid : Nat) (before after : HostState) : Prop where
  clock : after.files.clock = before.files.clock
  readings : after.readings = before.readings
  drawn : after.drawn = before.drawn
  stopped : after.stopped = before.stopped
  vault : after.files.disk.vault = before.files.disk.vault
  temps : ∀ other, other ≠ tid → after.files.disk.temps other = before.files.disk.temps other
  sidecar : ∀ other, other ≠ tid →
    (after.files.sidecar = some other ↔ before.files.sidecar = some other)

theorem Unnoticed.refl (tid : Nat) (state : HostState) : Unnoticed tid state state :=
  ⟨rfl, rfl, rfl, rfl, rfl, fun _ _ => rfl, fun _ _ => Iff.rfl⟩

theorem Disk.apply_temps_of_ne {tid : Nat} {disk : Disk} {op : FileOp} {disk' : Disk} {answer : op.Answer} {other : Nat}
    (different : other ≠ tid) (applied : disk.apply tid op = some (answer, disk')) :
    disk'.temps other = disk.temps other := by
  rw [apply_temps applied]
  exact Function.update_of_ne different ..

theorem FileState.respond_keepsClock {tid : Nat} {state state' : FileState} {op : HostOp FileOp}
    {answer : HostOp.Answer FileOp.Answer op} (performed : state.respond tid op = some (answer, state')) :
    state'.clock = state.clock := by
  unfold respond at performed
  split at performed
  · cases performed
    rfl
  · cases performed
    rfl
  · split at performed <;> cases performed
    rfl
  · cases performed
    split <;> rfl
  · cases performed
    rfl
  · split at performed <;> cases performed
    rfl
  · cases performed
    rfl
  · obtain ⟨_, _, same⟩ := Option.map_eq_some_iff.mp performed
    cases same
    rfl
  · contradiction

namespace HostAct

variable {tid : Nat} {before after : HostState}

theorem alive {event : Event (HostOp.Answer FileOp.Answer)} (act : HostAct tid before event after) :
    tid ∉ before.stopped := by
  cases act with
  | respond alive _ => exact alive
  | fail _ alive _ => exact alive
  | generateKey _ alive => exact alive
  | generateNonce _ alive => exact alive
  | newV4 alive _ => exact alive

/-- A storage operation happens as the file system does it, or fails. -/
theorem storage_inv {op : FileOp} {answer : op.Answer}
    (act : HostAct tid before ⟨.storage op, answer⟩ after) :
    (∃ files, before.files.respond tid (.storage op) = some (answer, files) ∧
      after = { before with files }) ∨
    ∃ message length, op.failed message = some answer ∧
      after = { before with files :=
        { before.files with disk := before.files.disk.interrupted tid length op } } := by
  cases act with
  | respond alive performed => exact .inl ⟨_, performed, rfl⟩
  | fail length alive fails => exact .inr ⟨_, length, fails, rfl⟩

/-- What a failing step does, nobody notices. -/
theorem unnoticed_of_failed {op : FileOp} (length : Nat) :
    Unnoticed tid before { before with files :=
      { before.files with disk := before.files.disk.interrupted tid length op } } where
  clock := rfl
  readings := rfl
  drawn := rfl
  stopped := rfl
  vault := Disk.interrupted_vault
  temps _ different := Disk.interrupted_temps different
  sidecar _ _ := Iff.rfl

/-- Nor what is done outside the sidecar lock. -/
theorem unnoticed_of_outside {op : HostOp FileOp} {answer : HostOp.Answer FileOp.Answer op} {files : FileState}
    (outside : Outside op) (performed : before.files.respond tid op = some (answer, files)) :
    Unnoticed tid before { before with files } := by
  obtain ⟨sidecar, disk⟩ := FileState.respond_outside outside performed
  exact ⟨FileState.respond_keepsClock performed, rfl, rfl, rfl, by rw [disk], fun _ _ => by rw [disk],
    fun _ _ => by rw [sidecar]⟩

/-- Nor what is done to the files before the rename. -/
theorem unnoticed_of_onFiles {op : FileOp} {answer : op.Answer} {files : FileState}
    (onFiles : OnFiles (.storage op)) (keeping : op ≠ .persist)
    (performed : before.files.respond tid (.storage op) = some (answer, files)) :
    Unnoticed tid before { before with files } := by
  obtain ⟨sidecar, handled⟩ := FileState.respond_onFiles onFiles performed
  exact ⟨FileState.respond_keepsClock performed, rfl, rfl, rfl, Disk.apply_vault keeping handled,
    fun _ different => Disk.apply_temps_of_ne different handled, fun _ _ => by rw [sidecar]⟩

end HostAct

end TariVault
