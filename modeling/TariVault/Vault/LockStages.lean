import TariVault.Program.Phases
import TariVault.Vault.Processes

namespace TariVault

open Program TariVault.System FileM

/-! # The locks a call holds

A call takes the mutex of its store, then the lock of the sidecar file, and writes a
temporary file only inside both. What it does next always fits what it holds, also
after failures, and it ends holding nothing.
-/

inductive LockStage where
  | outside
  | queued (mutex : Nat)
  /-- Inside both locks, with a temporary file or without. -/
  | inside (mutex : Nat) (writing : Bool)
deriving DecidableEq

namespace LockStage

def mutex : LockStage → Option Nat
  | .outside => none
  | .queued mutex => some mutex
  | .inside mutex _ => some mutex

def isInside : LockStage → Bool
  | .inside _ _ => true
  | _ => false

def writing : LockStage → Bool
  | .inside _ writing => writing
  | _ => false

def due : LockStage → HostOp FileOp → Prop
  | .outside, .storage (.lockProcess _) => True
  | .queued _, .storage .openLockFile => True
  | .queued _, .storage .lockExclusive => True
  | .queued mutex, .storage (.unlockProcess other) => other = mutex
  | .inside _ false, .storage .read => True
  | .inside _ false, .storage .newTemp => True
  | .inside _ false, .storage .setPermissions => True
  | .inside _ false, .storage .unlock => True
  | .inside _ true, .storage (.writeAll _) => True
  | .inside _ true, .storage .flush => True
  | .inside _ true, .storage .persist => True
  | .inside _ true, .storage .dropTemp => True
  | _, .storage _ => False
  | stage, .panic _ => stage = .outside
  | _, _ => True

def after : LockStage → Event (HostOp.Answer FileOp.Answer) → LockStage
  | _, ⟨.storage (.lockProcess mutex), _⟩ => .queued mutex
  | _, ⟨.storage (.unlockProcess _), _⟩ => .outside
  | .queued mutex, ⟨.storage .lockExclusive, .ok _⟩ => .inside mutex false
  | .inside mutex _, ⟨.storage .unlock, _⟩ => .queued mutex
  | .inside mutex _, ⟨.storage .newTemp, .ok _⟩ => .inside mutex true
  | .inside mutex _, ⟨.storage .persist, .ok _⟩ => .inside mutex false
  | .inside mutex _, ⟨.storage .dropTemp, _⟩ => .inside mutex false
  | stage, _ => stage

end LockStage

open LockStage

/-- The program can be performed at `stage`, and ends as `ends` says. -/
abbrev Program.Staged {α : Type} (program : Host FileOp.Answer α) (stage : LockStage)
    (ends : α → LockStage → Prop) : Prop :=
  program.Obeys due after ends stage

variable {serde : Serde} {α κ : Type} {mutex : Nat} {stage : LockStage}

/-- It is at this stage again, whatever the result. -/
abbrev Ends {ρ : Type} (stage : LockStage) : ρ → LockStage → Prop := fun _ reached => reached = stage

theorem storage_staged {op : FileOp} {ends : op.Answer → LockStage → Prop} (here : stage.due (.storage op))
    (answered : ∀ answer, ends answer (stage.after ⟨.storage op, answer⟩)) :
    (Host.storage op).Staged stage ends :=
  .perform here answered

theorem io_staged {program : Host FileOp.Answer (Except String α)} {good : α → LockStage → Prop}
    {bad : StorageError → LockStage → Prop}
    (staged : program.Staged stage (Either good fun message => bad (.io message))) :
    (io program).run.Staged stage (Either good bad) := by
  refine .map (staged.weaken fun result reached ends => ?_)
  cases result with
  | ok value => exact ends
  | error message => exact ends

theorem either_ends {result : Except StorageError α} {reached : LockStage}
    (ends : Either (Ends stage) (Ends stage) result reached) : reached = stage := by
  cases result with
  | ok value => exact ends
  | error error => exact ends

/-- After a part that ends where it began, whatever its result. -/
theorem bind_staged {β : Type} {first : FileM α} {rest : α → FileM β} {good : β → LockStage → Prop}
    {bad : StorageError → LockStage → Prop} (staged : first.run.Staged stage (Either (Ends stage) (Ends stage)))
    (fails : ∀ error, bad error stage) (later : ∀ value, (rest value).run.Staged stage (Either good bad)) :
    (first >>= rest).run.Staged stage (Either good bad) := by
  refine Obeys.bind_ok (Ends stage) (Ends stage) staged ?_ ?_
  · intro error reached same
    rw [same]
    exact fails error
  · intro value reached same
    rw [same]
    exact later value

theorem readState_staged : (LocalFileStore.readState serde).run.Staged (.inside mutex false)
    (Either (Ends (.inside mutex false)) (Ends (.inside mutex false))) := by
  refine bind_staged (io_staged (storage_staged trivial fun answer => ?_)) (fun _ => rfl) fun content => ?_
  · cases answer <;> rfl
  · rw [FileM.json]
    cases DiskState.fromSlice serde content <;> exact .done rfl

/-- A success has renamed the temporary file away, a failure has left it. -/
theorem fillAndPersist_staged (state : DiskState) : (fillAndPersist serde state).run.Staged (.inside mutex true)
    (Either (Ends (.inside mutex false)) (Ends (.inside mutex true))) := by
  refine bind_staged ?_ (fun _ => rfl) fun bytes => ?_
  · rw [FileM.json]
    cases state.toVecPretty serde <;> exact .done rfl
  refine bind_staged (io_staged (storage_staged trivial fun answer => ?_)) (fun _ => rfl) fun _ => ?_
  · cases answer <;> rfl
  refine bind_staged (io_staged (storage_staged trivial fun answer => ?_)) (fun _ => rfl) fun _ => ?_
  · cases answer <;> rfl
  refine io_staged (storage_staged trivial fun answer => ?_)
  cases answer <;> rfl

/-- The temporary file is gone in every case. -/
theorem writeAtomic_staged (hasParent : Bool) (state : DiskState) :
    (writeAtomic serde hasParent state).run.Staged (.inside mutex false)
      (Either (Ends (.inside mutex false)) (Ends (.inside mutex false))) := by
  unfold writeAtomic
  split
  · refine Obeys.bind_ok (Ends (.inside mutex true)) (Ends (.inside mutex false))
      (io_staged (storage_staged trivial fun answer => ?_)) (fun _ _ same => same) fun _ reached same => ?_
    · cases answer <;> rfl
    rw [same]
    refine Obeys.bind_ok (Ends (.inside mutex false)) (Ends (.inside mutex false)) ?_ (fun _ _ same => same)
      fun _ reached same => ?_
    · refine (fillAndPersist_staged state).bind fun result reached ends => ?_
      cases result with
      | ok value => exact .done ends
      | error error =>
          cases ends
          have dropped : (Host.storage FileOp.dropTemp).Staged (.inside mutex true) (Ends (.inside mutex false)) :=
            storage_staged trivial fun _ => rfl
          exact dropped.bind fun _ _ same => .done same
    rw [same]
    refine io_staged (storage_staged trivial fun answer => ?_)
    cases answer <;> rfl
  · exact .done rfl

/-- What a call does while it holds the sidecar lock. -/
theorem withFileLock_staged {body : FileM α} (staged : body.run.Staged (.inside mutex false)
    (Either (Ends (.inside mutex false)) (Ends (.inside mutex false)))) :
    (LocalFileStore.withFileLock body).run.Staged (.queued mutex)
      (Either (Ends (.queued mutex)) (Ends (.queued mutex))) := by
  refine bind_staged (io_staged (storage_staged trivial fun answer => ?_)) (fun _ => rfl) fun _ => ?_
  · cases answer <;> rfl
  refine Obeys.bind_ok (Ends (.inside mutex false)) (Ends (.queued mutex))
    (io_staged (storage_staged trivial fun answer => ?_)) (fun _ _ same => same) fun _ reached same => ?_
  · cases answer <;> rfl
  rw [same]
  refine staged.bind fun result reached ends => ?_
  cases either_ends ends
  have unlocked : (Host.storage FileOp.unlock).Staged (.inside mutex false) (Ends (.queued mutex)) :=
    storage_staged trivial fun _ => rfl
  refine unlocked.bind fun _ _ same => .done ?_
  cases result <;> exact same

theorem withProcessLock_staged (store : LocalFileStore) {capture : Host FileOp.Answer κ} {body : κ → FileM α}
    (captures : capture.Staged (.queued store.processLock) (Ends (.queued store.processLock)))
    (staged : ∀ captured, (body captured).run.Staged (.inside store.processLock false)
      (Either (Ends (.inside store.processLock false)) (Ends (.inside store.processLock false)))) :
    (store.withProcessLock capture body).Staged .outside (Ends .outside) := by
  refine .step trivial fun _ => captures.bind fun captured reached same => ?_
  cases same
  refine (withFileLock_staged (staged captured)).bind fun result reached ends => ?_
  cases either_ends ends
  exact .step rfl fun _ => .done rfl

theorem perform_staged (store : LocalFileStore) (op : BackendOp) :
    ((store.backend serde).perform op).Staged .outside (Ends .outside) := by
  cases op with
  | insert recordId record =>
      refine withProcessLock_staged store (.done rfl) fun _ => ?_
      exact bind_staged readState_staged (fun _ => rfl) fun state => writeAtomic_staged _ _
  | fetch recordId =>
      refine withProcessLock_staged store (.done rfl) fun _ => ?_
      refine bind_staged readState_staged (fun _ => rfl) fun state => ?_
      split <;> exact .done rfl
  | delete recordId =>
      refine withProcessLock_staged store (.done rfl) fun _ => ?_
      refine bind_staged readState_staged (fun _ => rfl) fun state => ?_
      dsimp only
      split
      · exact bind_staged (writeAtomic_staged _ _) (fun _ => rfl) fun _ => .done rfl
      · exact .done rfl
  | deleteExpired =>
      refine withProcessLock_staged store (.step trivial fun _ => .done rfl) fun now => ?_
      refine bind_staged readState_staged (fun _ => rfl) fun state => ?_
      dsimp only
      split
      · exact bind_staged (writeAtomic_staged _ _) (fun _ => rfl) fun _ => .done rfl
      · exact .done rfl

/-- A vault call takes and releases the locks once for each of its storage operations. -/
theorem vaultCall_staged (store : LocalFileStore) (call : VaultCall) (aead : Aead) :
    (call.program (store.backend serde) aead).Staged .outside (Ends .outside) := by
  rw [call.program_eq (store.backend serde) aead]
  refine Obeys.interpret (fun op => ?_) _
  cases op with
  | storage op => exact perform_staged store op
  | panic message => exact .step rfl fun answer => answer.elim
  | _ => exact .step trivial fun _ => .done rfl

/-- The locks and the temporary file of a call are those of its stage. A killed call has
lost its locks and left its file. -/
structure Stands (state : HostState) (tid : Nat) (stage : LockStage) : Prop where
  sidecar : state.files.sidecar = some tid ↔ stage.isInside = true ∧ tid ∉ state.stopped
  mutexes : ∀ mutex, state.files.mutexes mutex = some tid → stage.mutex = some mutex ∧ tid ∉ state.stopped
  temp : (state.files.disk.temps tid).isSome = stage.writing

variable {state state' : HostState} {tid other : Nat} {op : HostOp FileOp}
  {answer : HostOp.Answer FileOp.Answer op}

/-- Only the temporary file, if anything, is another. -/
theorem Stands.keep {stage' : LockStage} (stands : Stands state tid stage) {disk : Disk}
    (inside : stage'.isInside = stage.isInside) (mutex : stage'.mutex = stage.mutex)
    (temp : (disk.temps tid).isSome = stage'.writing) :
    Stands { state with files := { state.files with disk } } tid stage' where
  sidecar := by rw [inside]; exact stands.sidecar
  mutexes := by rw [mutex]; exact stands.mutexes
  temp := temp

theorem Disk.interrupted_isSome {disk : Disk} {length : Nat} {op : FileOp} :
    ((disk.interrupted tid length op).temps other).isSome = (disk.temps other).isSome := by
  unfold Disk.interrupted
  split
  · split
    · rename_i written present
      by_cases same : other = tid
      · subst same
        simp [Disk.setTemp, present]
      · simp [Disk.setTemp, same]
    · rfl
  · rfl

/-- A step that fails leaves its call at the same stage. -/
theorem LockStage.after_failed {op : FileOp} {answer : op.Answer} {message : String}
    (failed : op.failed message = some answer) : stage.after ⟨.storage op, answer⟩ = stage := by
  cases op with
  | lockProcess mutex => contradiction
  | unlockProcess mutex => contradiction
  | unlock => contradiction
  | dropTemp => contradiction
  | pathExists => contradiction
  | _ =>
      cases failed
      cases stage <;> rfl

/-- A step on the files that succeeds leaves the temporary file its next stage has. -/
theorem Stands.onFiles (stands : Stands state tid stage) {op : FileOp} {answer : op.Answer} {files : FileState}
    (here : stage.due (.storage op)) (onFiles : OnFiles (.storage op))
    (performed : state.files.respond tid (.storage op) = some (answer, files)) :
    Stands { state with files } tid (stage.after ⟨.storage op, answer⟩) := by
  rw [FileState.respond_eq_handle onFiles] at performed
  obtain ⟨⟨answer', disk⟩, handled, same⟩ := Option.map_eq_some_iff.mp performed
  cases same
  have temps := congrFun (Disk.apply_temps handled) tid
  rw [Function.update_self] at temps
  have temp := stands.temp
  cases stage with
  | outside => cases op <;> first | exact here.elim | exact onFiles.elim
  | queued mutex => cases op <;> first | exact here.elim | exact onFiles.elim
  | inside mutex writing =>
      have kept (writing' : Bool) (filled : (op.fill (state.files.disk.temps tid)).isSome = writing') :
          Stands { state with files := { state.files with disk } } tid (.inside mutex writing') :=
        stands.keep rfl rfl (by rw [temps]; exact filled)
      cases op with
      | read => exact kept writing temp
      | newTemp =>
          cases handled
          exact kept true rfl
      | writeAll bytes =>
          refine kept writing ?_
          rw [FileOp.fill, Option.isSome_map]
          exact temp
      | flush => exact kept writing temp
      | persist =>
          simp only [Disk.handle, Disk.apply] at handled
          split at handled
          · cases handled
            exact kept false rfl
          · contradiction
      | dropTemp => exact kept false rfl
      | setPermissions => exact kept writing temp
      | _ => exact onFiles.elim

/-- An operation of the store that is due is one on the files, inside, or one on a lock. -/
inductive LockStage.Due : LockStage → FileOp → Prop where
  | lockProcess {mutex : Nat} : Due .outside (.lockProcess mutex)
  | openLockFile {mutex : Nat} : Due (.queued mutex) .openLockFile
  | lockExclusive {mutex : Nat} : Due (.queued mutex) .lockExclusive
  | unlockProcess {mutex : Nat} : Due (.queued mutex) (.unlockProcess mutex)
  | unlock {mutex : Nat} : Due (.inside mutex false) .unlock
  | onFiles {mutex : Nat} {writing : Bool} {op : FileOp} (onFiles : OnFiles (.storage op)) :
      Due (.inside mutex writing) op

theorem LockStage.due_inv {op : FileOp} (here : stage.due (.storage op)) : stage.Due op := by
  cases stage with
  | outside =>
      cases op with
      | lockProcess mutex => exact .lockProcess
      | _ => exact here.elim
  | queued mutex =>
      cases op with
      | openLockFile => exact .openLockFile
      | lockExclusive => exact .lockExclusive
      | unlockProcess other =>
          cases here
          exact .unlockProcess
      | _ => exact here.elim
  | inside mutex writing =>
      cases writing with
      | false =>
          cases op with
          | unlock => exact .unlock
          | read => exact .onFiles trivial
          | newTemp => exact .onFiles trivial
          | setPermissions => exact .onFiles trivial
          | _ => exact here.elim
      | true =>
          cases op with
          | writeAll bytes => exact .onFiles trivial
          | flush => exact .onFiles trivial
          | persist => exact .onFiles trivial
          | dropTemp => exact .onFiles trivial
          | _ => exact here.elim

theorem Stands.respond (stands : Stands state tid stage) (alive : tid ∉ state.stopped) {op : FileOp}
    {answer : op.Answer} {files : FileState} (here : stage.due (.storage op))
    (performed : state.files.respond tid (.storage op) = some (answer, files)) :
    Stands { state with files } tid (stage.after ⟨.storage op, answer⟩) := by
  cases due_inv here with
  | @lockProcess mutex =>
      simp only [FileState.respond] at performed
      split at performed
      · cases performed
        refine ⟨stands.sidecar, fun other held => ?_, stands.temp⟩
        by_cases same : other = mutex
        · exact ⟨congrArg some same.symm, alive⟩
        · simp only [Function.update_of_ne same] at held
          have impossible := (stands.mutexes other held).1
          contradiction
      · contradiction
  | openLockFile =>
      cases performed
      exact ⟨stands.sidecar, stands.mutexes, stands.temp⟩
  | @lockExclusive mutex =>
      simp only [FileState.respond] at performed
      split at performed
      · cases performed
        exact ⟨⟨fun _ => ⟨rfl, alive⟩, fun _ => rfl⟩, stands.mutexes, stands.temp⟩
      · contradiction
  | @unlockProcess mutex =>
      cases performed
      refine ⟨?_, fun other held => ?_, ?_⟩
      · split <;> exact stands.sidecar
      · split at held
        · by_cases same : other = mutex
          · subst same
            simp at held
          · simp only [Function.update_of_ne same] at held
            have mine := (stands.mutexes other held).1
            cases mine
            contradiction
        · rename_i free
          have mine := (stands.mutexes other held).1
          cases mine
          contradiction
      · split <;> exact stands.temp
  | unlock =>
      cases performed
      exact ⟨⟨fun held => by contradiction, fun inside => by simp [isInside, LockStage.after] at inside⟩,
        stands.mutexes, stands.temp⟩
  | onFiles onFiles => exact stands.onFiles here onFiles performed

theorem LockStage.after_host (outside : ∀ file, op ≠ .storage file) : stage.after ⟨op, answer⟩ = stage := by
  cases op with
  | storage file => exact absurd rfl (outside file)
  | _ => cases stage <;> rfl

theorem Stands.performed (stands : Stands state tid stage) (here : stage.due op)
    (act : HostAct tid state ⟨op, answer⟩ state') : Stands state' tid (stage.after ⟨op, answer⟩) := by
  cases act with
  | @respond op answer files alive performed =>
      cases op with
      | storage op => exact stands.respond alive here performed
      | _ =>
          rw [LockStage.after_host (by simp)]
          cases performed <;> exact stands
  | fail length _ failed =>
      rw [LockStage.after_failed failed]
      exact stands.keep rfl rfl (Disk.interrupted_isSome.trans stands.temp)
  | _ =>
      rw [LockStage.after_host (by simp)]
      exact ⟨stands.sidecar, stands.mutexes, stands.temp⟩

/-- Nobody touches the locks and the temporary file of another call. -/
theorem Stands.respond_other {stage' : LockStage} (stands : Stands state tid stage) (alive : tid ∉ state.stopped)
    {op : FileOp} {answer : op.Answer} {files : FileState} (here : stage.due (.storage op))
    (performed : state.files.respond tid (.storage op) = some (answer, files)) (different : other ≠ tid)
    (theirs : Stands state other stage') : Stands { state with files } other stage' := by
  cases due_inv here with
  | @lockProcess mutex =>
      simp only [FileState.respond] at performed
      split at performed
      · cases performed
        refine ⟨theirs.sidecar, fun held locked => ?_, theirs.temp⟩
        by_cases same : held = mutex
        · subst same
          simp [different.symm] at locked
        · simp only [Function.update_of_ne same] at locked
          exact theirs.mutexes held locked
      · contradiction
  | openLockFile =>
      cases performed
      exact ⟨theirs.sidecar, theirs.mutexes, theirs.temp⟩
  | lockExclusive =>
      obtain ⟨_, free, taken, disk⟩ := FileState.respond_lockExclusive performed
      simp only [FileState.respond, free] at performed
      cases performed
      have outside : ¬ (stage'.isInside = true ∧ other ∉ state.stopped) := by
        rw [← theirs.sidecar, free]
        simp
      exact ⟨by simp [outside, different.symm], theirs.mutexes, theirs.temp⟩
  | @unlockProcess mutex =>
      cases performed
      refine ⟨?_, fun held locked => ?_, ?_⟩
      · split <;> exact theirs.sidecar
      · split at locked
        · by_cases same : held = mutex
          · subst same
            simp at locked
          · simp only [Function.update_of_ne same] at locked
            exact theirs.mutexes held locked
        · exact theirs.mutexes held locked
      · split <;> exact theirs.temp
  | @unlock mutex =>
      have mine : state.files.sidecar = some tid := stands.sidecar.mpr ⟨rfl, alive⟩
      cases performed
      have outside : ¬ (stage'.isInside = true ∧ other ∉ state.stopped) := by
        rw [← theirs.sidecar, mine]
        simp [different.symm]
      exact ⟨by simp [outside], theirs.mutexes, theirs.temp⟩
  | onFiles onFiles =>
      rw [FileState.respond_eq_handle onFiles] at performed
      obtain ⟨⟨answer', disk⟩, handled, same⟩ := Option.map_eq_some_iff.mp performed
      cases same
      exact theirs.keep rfl rfl (by rw [Disk.apply_temps_of_ne different handled]; exact theirs.temp)

theorem Stands.others {stage' : LockStage} (stands : Stands state tid stage) (here : stage.due op)
    (act : HostAct tid state ⟨op, answer⟩ state') (different : other ≠ tid)
    (theirs : Stands state other stage') : Stands state' other stage' := by
  cases act with
  | @respond op answer files alive performed =>
      cases op with
      | storage op => exact stands.respond_other alive here performed different theirs
      | _ => cases performed <;> exact theirs
  | fail length _ failed => exact theirs.keep rfl rfl (Disk.interrupted_isSome.trans theirs.temp)
  | _ => exact ⟨theirs.sidecar, theirs.mutexes, theirs.temp⟩

theorem Stands.drifts {env : HostEnv} (stands : Stands state tid stage) : Stands (state.drift env) tid stage := by
  cases env with
  | tick now => exact ⟨stands.sidecar, stands.mutexes, stands.temp⟩
  | dropFuture dropped =>
      refine ⟨stands.sidecar, fun mutex held => stands.mutexes mutex ?_, stands.temp⟩
      simp only [HostState.drift, FileState.drift] at held
      split at held
      · contradiction
      · exact held
  | kill victims =>
      refine ⟨?_, fun mutex held => ?_, stands.temp⟩
      · simp only [HostState.drift, Option.filter_eq_some_iff, stands.sidecar, List.mem_append, not_or]
        simp
        tauto
      · simp only [HostState.drift, Option.filter_eq_some_iff] at held
        obtain ⟨locked, alive⟩ := held
        obtain ⟨mine, running⟩ := stands.mutexes mutex locked
        exact ⟨mine, by simp_all [HostState.drift]⟩

/-- The protocol that every vault call over a vault file keeps to. -/
def fileLocks (serde : Serde) (aead : Aead) : Protocol (fileVaults serde aead).low where
  Phase := LockStage
  idle := .outside
  due := due
  after := LockStage.after
  stands := Stands
  obeys call := vaultCall_staged call.store call.call aead
  performed stands here act := stands.performed here act
  others stands here act different theirs := stands.others here act different theirs
  drifts stands changed := by
    subst changed
    exact stands.drifts

end TariVault
