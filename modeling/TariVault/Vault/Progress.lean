import TariVault.Vault.LockStages
import TariVault.Vault.SharedFile
import TariVault.Vault.StepCosts

namespace TariVault

open Program TariVault.System LockStage

/-! # Every call comes to an end

Nobody waits for a lock for ever: whoever holds it can go on, or waits for the one lock
above it, whose holder can. And no call goes on for ever.
-/

variable {serde : Serde} {aead : Aead} {state : HostState} {tid : Nat} {stage : LockStage}
  {config : Config (fileVaults serde aead).low} {labels : List (Label (fileVaults serde aead).low)}

/-- Call `tid` can perform the operation, and it need not fail. -/
inductive Possible (tid : Nat) (state : HostState) : HostOp FileOp → Prop where
  | respond {op answer files} (performed : state.files.respond tid op = some (answer, files)) : Possible tid state op
  | generateKey : Possible tid state .generateKey
  | generateNonce : Possible tid state .generateNonce
  | newV4 {recordId} (fresh : recordId ∉ state.drawn) : Possible tid state .newV4

/-- The next operation of a call. -/
def AtOp (config : Config (fileVaults serde aead).low) (tid : Nat) (op : HostOp FileOp) : Prop :=
  ∃ thread next, config.threads tid = some thread ∧ thread.rest = .step op next

/-- A call that was not killed, and can go on now. -/
def Proceeds (config : Config (fileVaults serde aead).low) (tid : Nat) : Prop :=
  tid ∉ config.shared.stopped ∧ ∃ op, AtOp config tid op ∧ Possible tid config.shared op

/-- The next operation of a call takes the sidecar lock, which another has. -/
def WaitsForSidecar (config : Config (fileVaults serde aead).low) (tid holder : Nat) : Prop :=
  AtOp config tid (.storage .lockExclusive) ∧ config.shared.files.sidecar = some holder

/-- The next operation of a call takes a lock that another has. -/
def WaitsFor (config : Config (fileVaults serde aead).low) (tid holder : Nat) : Prop :=
  (∃ mutex, AtOp config tid (.storage (.lockProcess mutex)) ∧ config.shared.files.mutexes mutex = some holder) ∨
    WaitsForSidecar config tid holder

/-- The call has returned, or its task has panicked. -/
def Over (thread : Thread (fileVaults serde aead).low) : Prop :=
  (∃ result, thread.Returned result) ∨ ∃ message next, thread.rest = .step (.panic message) next

theorem Possible.act {op : HostOp FileOp} (possible : Possible tid state op) (alive : tid ∉ state.stopped) :
    ∃ answer state', HostAct tid state ⟨op, answer⟩ state' := by
  cases possible with
  | respond performed => exact ⟨_, _, .respond alive performed⟩
  | generateKey => exact ⟨.replicate 32 0, _, .generateKey _ alive⟩
  | generateNonce => exact ⟨.replicate 12 0, _, .generateNonce _ alive⟩
  | newV4 fresh => exact ⟨_, _, .newV4 alive fresh⟩

theorem Proceeds.step (proceeds : Proceeds config tid) :
    ∃ event last, Step config (.act tid event) last := by
  obtain ⟨alive, op, ⟨thread, next, found, rest⟩, possible⟩ := proceeds
  obtain ⟨answer, state', act⟩ := possible.act alive
  obtain ⟨call, past, rest'⟩ := thread
  cases rest
  exact ⟨⟨op, answer⟩, _, .act found act⟩

/-- Nothing is open, locked or written. -/
structure HostState.AtRest (state : HostState) : Prop where
  sidecar : state.files.sidecar = none
  mutexes : ∀ mutex, state.files.mutexes mutex = none
  temps : ∀ tid, state.files.disk.temps tid = none

theorem HostState.AtRest.stands (atRest : state.AtRest) (tid : Nat) : Stands state tid .outside where
  sidecar := by simp [atRest.sidecar, isInside]
  mutexes mutex held := by
    rw [atRest.mutexes] at held
    contradiction
  temp := by rw [atRest.temps]; rfl

theorem possible_onFiles {mutex : Nat} {writing : Bool} {op : FileOp}
    (stands : Stands state tid (.inside mutex writing)) (here : due (.inside mutex writing) (.storage op))
    (onFiles : OnFiles (.storage op)) : Possible tid state (.storage op) := by
  have answered (applied : (state.files.disk.apply tid op).isSome = true) : Possible tid state (.storage op) := by
    obtain ⟨⟨answer, disk⟩, applied⟩ := Option.isSome_iff_exists.mp applied
    refine @Possible.respond tid state (.storage op) answer { state.files with disk } ?_
    rw [FileState.respond_eq_handle onFiles, Disk.handle, applied]
    rfl
  have temp := stands.temp
  cases op with
  | read =>
      refine answered ?_
      rw [Disk.apply]
      split <;> rfl
  | newTemp => exact answered rfl
  | flush => exact answered rfl
  | dropTemp => exact answered rfl
  | setPermissions => exact answered rfl
  | writeAll bytes =>
      cases writing with
      | false => exact here.elim
      | true =>
          obtain ⟨written, present⟩ := Option.isSome_iff_exists.mp temp
          exact answered (by simp [Disk.apply, present])
  | persist =>
      cases writing with
      | false => exact here.elim
      | true =>
          obtain ⟨written, present⟩ := Option.isSome_iff_exists.mp temp
          exact answered (by simp [Disk.apply, present])
  | _ => exact onFiles.elim

/-- What can keep a call from going on. -/
inductive Held (state : HostState) : LockStage → HostOp FileOp → Prop where
  | lockProcess {mutex holder} (held : state.files.mutexes mutex = some holder) :
      Held state .outside (.storage (.lockProcess mutex))
  | lockExclusive {mutex holder : Nat} (held : state.files.sidecar = some holder) :
      Held state (.queued mutex) (.storage .lockExclusive)
  | panic (message : String) : Held state .outside (.panic message)

/-- A call can go on unless another has the lock it takes, or it has panicked. -/
theorem possible_of_due {op : HostOp FileOp} (stands : Stands state tid stage) (here : stage.due op)
    (unused : ∃ recordId, recordId ∉ state.drawn) : Possible tid state op ∨ Held state stage op := by
  cases op with
  | now => exact .inl (.respond rfl)
  | log line => exact .inl (.respond rfl)
  | generateKey => exact .inl .generateKey
  | generateNonce => exact .inl .generateNonce
  | newV4 =>
      obtain ⟨recordId, fresh⟩ := unused
      exact .inl (.newV4 fresh)
  | panic message =>
      have outside : stage = .outside := by
        cases stage with
        | outside => rfl
        | queued mutex => exact here
        | inside mutex writing => cases writing <;> exact here
      subst outside
      exact .inr (.panic message)
  | storage op =>
      cases due_inv here with
      | @lockProcess mutex =>
          cases locked : state.files.mutexes mutex with
          | some holder => exact .inr (.lockProcess locked)
          | none => exact .inl (.respond (by simp only [FileState.respond, locked]; rfl))
      | @lockExclusive mutex =>
          cases locked : state.files.sidecar with
          | some holder => exact .inr (.lockExclusive locked)
          | none => exact .inl (.respond (by simp only [FileState.respond, locked]; rfl))
      | openLockFile => exact .inl (.respond rfl)
      | unlockProcess => exact .inl (.respond rfl)
      | unlock => exact .inl (.respond rfl)
      | onFiles onFiles => exact .inl (possible_onFiles stands here onFiles)

variable {holder : Nat}

/-- A call that holds something is at an operation that is due. -/
theorem busy_atOp (kept : (fileLocks serde aead).Follows stage (config.threads holder))
    (busy : stage ≠ .outside) : ∃ op, AtOp config holder op ∧ stage.due op := by
  cases found : config.threads holder with
  | none =>
      rw [found] at kept
      exact absurd kept busy
  | some thread =>
      rw [found] at kept
      obtain ⟨op, next, rest, here⟩ := kept.due_of_busy busy
      exact ⟨op, ⟨thread, next, found, rest⟩, here⟩

/-- The holder of the sidecar lock can go on. -/
theorem sidecar_holder_proceeds (kept : (fileLocks serde aead).Kept config)
    (unused : ∃ recordId, recordId ∉ config.shared.drawn) (held : config.shared.files.sidecar = some holder) :
    Proceeds config holder := by
  obtain ⟨stage, stands, follows⟩ := kept holder
  obtain ⟨inside, alive⟩ := stands.sidecar.mp held
  obtain ⟨op, atOp, here⟩ := busy_atOp follows (by intro outside; subst outside; contradiction)
  refine ⟨alive, op, atOp, ?_⟩
  rcases possible_of_due stands here unused with possible | blocked
  · exact possible
  · cases blocked <;> contradiction

/-- So can the holder of a mutex, or it waits for the sidecar lock. -/
theorem mutex_holder_proceeds (kept : (fileLocks serde aead).Kept config)
    (unused : ∃ recordId, recordId ∉ config.shared.drawn) {mutex : Nat}
    (held : config.shared.files.mutexes mutex = some holder) :
    Proceeds config holder ∨ ∃ inner, WaitsForSidecar config holder inner ∧ Proceeds config inner := by
  obtain ⟨stage, stands, follows⟩ := kept holder
  obtain ⟨locked, alive⟩ := stands.mutexes mutex held
  obtain ⟨op, atOp, here⟩ := busy_atOp follows (by intro outside; subst outside; contradiction)
  rcases possible_of_due stands here unused with possible | blocked
  · exact .inl ⟨alive, op, atOp, possible⟩
  · cases blocked with
    | lockProcess _ => contradiction
    | panic message => contradiction
    | @lockExclusive _ inner taken =>
        exact .inr ⟨inner, ⟨atOp, taken⟩, sidecar_holder_proceeds kept unused taken⟩

theorem progress_of_kept (kept : (fileLocks serde aead).Kept config)
    (unused : ∃ recordId, recordId ∉ config.shared.drawn) {thread : Thread (fileVaults serde aead).low}
    (found : config.threads tid = some thread) (alive : tid ∉ config.shared.stopped)
    (unfinished : ¬ Over thread) :
    Proceeds config tid ∨ ∃ holder, WaitsFor config tid holder ∧
      (Proceeds config holder ∨ ∃ inner, WaitsForSidecar config holder inner ∧ Proceeds config inner) := by
  obtain ⟨stage, stands, follows⟩ := kept tid
  rw [found] at follows
  obtain ⟨call, past, rest⟩ := thread
  cases rest with
  | done result => exact absurd (.inl ⟨result, rfl⟩) unfinished
  | step op next =>
      have atOp : AtOp config tid op := ⟨_, next, found, rfl⟩
      rcases possible_of_due stands follows.head unused with possible | blocked
      · exact .inl ⟨alive, op, atOp, possible⟩
      · cases blocked with
        | panic message => exact absurd (.inr ⟨message, next, rfl⟩) unfinished
        | @lockProcess mutex holder taken =>
            exact .inr ⟨holder, .inl ⟨mutex, atOp, taken⟩, mutex_holder_proceeds kept unused taken⟩
        | @lockExclusive _ holder taken =>
            exact .inr ⟨holder, .inr ⟨atOp, taken⟩, .inl (sidecar_holder_proceeds kept unused taken)⟩

/-- When nobody can go on, a call that was not killed holds nothing. -/
theorem outside_of_stuck (kept : (fileLocks serde aead).Kept config)
    (unused : ∃ recordId, recordId ∉ config.shared.drawn) (stuck : ∀ tid, ¬ Proceeds config tid)
    (alive : tid ∉ config.shared.stopped) (stands : Stands config.shared tid stage)
    (follows : (fileLocks serde aead).Follows stage (config.threads tid)) : stage = .outside := by
  by_contra busy
  obtain ⟨op, atOp, here⟩ := busy_atOp follows busy
  rcases possible_of_due stands here unused with possible | blocked
  · exact stuck tid ⟨alive, op, atOp, possible⟩
  · cases blocked with
    | lockProcess _ => contradiction
    | panic message => contradiction
    | @lockExclusive _ holder taken => exact stuck holder (sidecar_holder_proceeds kept unused taken)

theorem kept_of_run (atRest : state.AtRest) (run : Run (Config.start state) labels config) :
    (fileLocks serde aead).Kept config :=
  (Protocol.kept_start atRest.stands).run run

/-- A call that is not over can go on, or waits for a call that can, or waits for one
that waits for the sidecar lock, whose holder can. -/
theorem file_calls_progress (atRest : state.AtRest) (run : Run (Config.start state) labels config)
    (unused : ∃ recordId, recordId ∉ config.shared.drawn) {thread : Thread (fileVaults serde aead).low}
    (found : config.threads tid = some thread) (alive : tid ∉ config.shared.stopped)
    (unfinished : ¬ Over thread) :
    Proceeds config tid ∨ ∃ holder, WaitsFor config tid holder ∧
      (Proceeds config holder ∨ ∃ inner, WaitsForSidecar config holder inner ∧ Proceeds config inner) :=
  progress_of_kept (kept_of_run atRest run) unused found alive unfinished

theorem atRest_opened (bytes : Bytes) (clock : DateTime) : (HostState.opened bytes clock).AtRest :=
  ⟨rfl, fun _ => rfl, fun _ => rfl⟩

/-- One call has the mutex, another waits for it. -/
theorem file_calls_progress_waiting :
    ∃ labels, ∃ config : Config (fileVaults .concrete .keyed).low,
      Run (Config.start (HostState.opened [] .epoch)) labels config ∧ config.shared.files.mutexes 0 = some 0 ∧
      AtOp config 1 (.storage (.lockProcess 0)) ∧
      (Proceeds config 1 ∨ ∃ holder, WaitsFor config 1 holder ∧
        (Proceeds config holder ∨ ∃ inner, WaitsForSidecar config holder inner ∧ Proceeds config inner)) := by
  let sweep : FileVaultCall := ⟨⟨true, 0⟩, .cleanup⟩
  let opened : HostState := .opened [] .epoch
  let locked : HostState := { opened with files := { opened.files with
    mutexes := Function.update (fun _ => none) 0 (some 0) } }
  have acts : @Acts _ _ (fileVaults .concrete .keyed).low 0 opened [⟨.storage (.lockProcess 0), ()⟩] locked :=
    .cons (.respond (by simp [opened, HostState.opened]) rfl) .nil
  have holding : ∃ labels, ∃ config : Config (fileVaults .concrete .keyed).low,
      Run (Config.start opened) labels config ∧ config.threads 1 = none ∧ config.shared = locked :=
    ⟨_, _, @RunWhere.alone _ _ (fileVaults .concrete .keyed).low (fun _ _ => True) (Config.start opened) 0 sweep
      _ _ locked rfl (.step (.refl _)) acts trivial fun _ _ _ _ _ _ => trivial, rfl, rfl⟩
  obtain ⟨labels, ⟨shared, threads⟩, holding, free, same⟩ := holding
  subst same
  have waiting : ∃ labels', ∃ config : Config (fileVaults .concrete .keyed).low,
      Run ⟨locked, threads⟩ labels' config ∧ config.shared = locked ∧
      config.threads 1 = some ⟨sweep, [], (fileVaults .concrete .keyed).low.code sweep⟩ :=
    ⟨_, _, @RunWhere.alone _ _ _ (fun _ _ => True) _ 1 sweep [] _ _ free (.refl _) .nil trivial
      fun _ _ _ _ _ _ => trivial, rfl, rfl⟩
  obtain ⟨labels', ⟨shared, threads'⟩, waiting, same, found⟩ := waiting
  subst same
  have unused : ∃ recordId, recordId ∉ locked.drawn := ⟨.replicate 16 0, by simp [locked, opened, HostState.opened]⟩
  have alive : 1 ∉ locked.stopped := by simp [locked, opened, HostState.opened]
  have run := holding.trans waiting
  refine ⟨_, ⟨locked, threads'⟩, run, rfl, ⟨_, _, found, rfl⟩,
    file_calls_progress (atRest_opened [] .epoch) run unused found alive ?_⟩
  intro done
  rcases done with ⟨result, returned⟩ | ⟨message, next, panicked⟩
  · contradiction
  · injection panicked with impossible
    contradiction

/-- A run has at most 21 steps for each call that was made. When it can only go on with
new calls, every call that was not killed is over, no lock is held, and only killed
calls have left a temporary file. -/
theorem file_calls_finish (atRest : state.AtRest) (run : Run (Config.start state) labels config) :
    labels.countP Label.isAct ≤ 21 * labels.countP Label.isInvoke ∧
      ((∃ recordId, recordId ∉ config.shared.drawn) → (∀ tid, ¬ Proceeds config tid) →
        (∀ tid thread, config.threads tid = some thread → tid ∉ config.shared.stopped → Over thread) ∧
        config.shared.files.sidecar = none ∧ (∀ mutex, config.shared.files.mutexes mutex = none) ∧
        ∀ tid, tid ∉ config.shared.stopped → config.shared.files.disk.temps tid = none) := by
  refine ⟨acts_le_of_costs (fileVaultCall_costs serde aead) run, fun unused stuck => ?_⟩
  have kept := kept_of_run atRest run
  refine ⟨fun tid thread found alive => ?_, ?_, fun mutex => ?_, fun tid alive => ?_⟩
  · by_contra unfinished
    rcases progress_of_kept kept unused found alive unfinished with mine | ⟨holder, _, theirs | ⟨inner, _, last⟩⟩
    · exact stuck tid mine
    · exact stuck holder theirs
    · exact stuck inner last
  · by_contra held
    obtain ⟨holder, held⟩ := Option.ne_none_iff_exists'.mp held
    exact stuck holder (sidecar_holder_proceeds kept unused held)
  · by_contra held
    obtain ⟨holder, held⟩ := Option.ne_none_iff_exists'.mp held
    rcases mutex_holder_proceeds kept unused held with mine | ⟨inner, _, theirs⟩
    · exact stuck holder mine
    · exact stuck inner theirs
  · obtain ⟨stage, stands, follows⟩ := kept tid
    have temp := stands.temp
    rw [outside_of_stuck kept unused stuck alive stands follows] at temp
    exact Option.not_isSome_iff_eq_none.mp (Bool.not_eq_true _ ▸ temp)

/-- Nobody can go on where every call has returned. -/
theorem not_proceeds_of_returned
    (returned : ∀ tid thread, config.threads tid = some thread → ∃ result, thread.Returned result) (tid : Nat) :
    ¬ Proceeds config tid := by
  intro proceeds
  obtain ⟨_, op, ⟨thread, next, found, here⟩, _⟩ := proceeds
  obtain ⟨result, done⟩ := returned tid thread found
  rw [Thread.Returned, here] at done
  contradiction

/-- Two processes claim a proof at once, and then nobody can go on. -/
theorem file_calls_finish_claimed :
    ∃ bytes labels, ∃ config : Config (fileVaults .concrete .keyed).low, ∃ claiming,
      Run (Config.start (HostState.opened bytes .epoch)) labels config ∧
      config.threads 2 = some claiming ∧ claiming.Returned (.ok (.proof ⟨[7]⟩)) ∧
      labels.countP Label.isAct ≤ 21 * labels.countP Label.isInvoke ∧ (∀ tid, ¬ Proceeds config tid) ∧
      (∀ tid thread, config.threads tid = some thread → tid ∉ config.shared.stopped → Over thread) ∧
      config.shared.files.sidecar = none ∧ (∀ mutex, config.shared.files.mutexes mutex = none) ∧
      ∀ tid, tid ∉ config.shared.stopped → config.shared.files.disk.temps tid = none := by
  obtain ⟨_, _, _, _, _, _, _, _, before, after, _, _, _, given, returned, drawn⟩ :=
    @claimed_together fun _ _ => True
  obtain ⟨bytes, _, _, _, last, _, run, run', _, plays⟩ := file_turns before after
  obtain ⟨_, found⟩ := plays.present 2 _ given
  have stuck : ∀ tid, ¬ Proceeds last tid := by
    refine not_proceeds_of_returned fun tid thread found => ?_
    obtain ⟨result, returned⟩ := plays.returned returned found
    exact ⟨result, returned⟩
  have unused : ∃ recordId, recordId ∉ last.shared.drawn := by
    rw [← plays.rests.drawn, drawn]
    exact ⟨.replicate 16 1, by decide⟩
  have whole := (run.trans run').run
  obtain ⟨few, finished⟩ := file_calls_finish (atRest_opened bytes .epoch) whole
  exact ⟨bytes, _, last, _, whole, found, rfl, few, stuck, finished unused stuck⟩

end TariVault
