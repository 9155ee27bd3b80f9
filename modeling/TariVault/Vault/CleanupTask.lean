import TariVault.Error
import TariVault.Vault.Concurrent
import TariVault.Vault.Runtime

namespace TariVault

open Program TariVault.System

/-! # The periodic cleanup

A task sweeps the vault at every tick of its timer, until its token is cancelled. Any
number of such tasks run beside the other calls of the vault. The runtime decides when a
task takes its next step, and when the time passes.
-/

/-- The `cleanup` of a vault, and what its result says. -/
structure Cleaning {Op : Type} {Answer : Op → Type} (sys : System Op Answer) where
  cleanup : sys.Call
  removed : sys.Result → Except VaultError Nat
  panics : Op → Bool
  /-- Nothing comes after a panic. -/
  last : ∀ {tid state op answer state'}, panics op = true → ¬ sys.act tid state ⟨op, answer⟩ state'

/-- The call has returned or panicked. -/
def Cleaning.Over {Op : Type} {Answer : Op → Type} {sys : System Op Answer} (cleaning : Cleaning sys)
    (thread : sys.Thread) : Prop :=
  (∃ result, thread.Returned result) ∨ ∃ op next, thread.rest = .step op next ∧ cleaning.panics op = true

/-- What a cleanup says it has removed; it makes no other reply. -/
def removedOf : Except VaultError Reply → Except VaultError Nat
  | .ok (.removed count) => .ok count
  | .ok _ => .ok 0
  | .error error => .error error

def isPanic {β : Type} : HostOp β → Bool
  | .panic _ => true
  | _ => false

theorem isPanic_inv {β : Type} {op : HostOp β} (panics : isPanic op = true) : ∃ message, op = .panic message := by
  cases op with
  | panic message => exact ⟨message, rfl⟩
  | _ => contradiction

/-- The cleanup of a vault over single operations. -/
def vaultCleaning (aead : Aead) : Cleaning (vaultSystem aead) where
  cleanup := .cleanup
  removed := removedOf
  panics := isPanic
  last := by
    intro tid state op answer state' panics _
    obtain ⟨message, rfl⟩ := isPanic_inv panics
    exact answer.elim

/-- Where the loop stands. -/
inductive CleanupPhase where
  /-- The task was not scheduled yet. -/
  | spawned
  /-- `select!` looks at the token first. -/
  | selecting
  /-- The token was not cancelled, and the timer is next. -/
  | ticking
  /-- Neither was ready. -/
  | parked
  | sweeping (tid : Nat)
  | ended

structure Sweep where
  tid : Nat
  /-- When it began. -/
  instant : Nat

structure CleanupTask (Token : Type) where
  /-- `parent_cancel`, from which the token of the task is made. -/
  parent : Token
  cancel : Token
  /-- In nanoseconds. -/
  interval : Nat
  phase : CleanupPhase
  start : Nat
  deadline : Nat
  /-- The sweeps so far, the latest first. -/
  begun : List Sweep

variable {Op : Type} {Answer : Op → Type} {sys : System Op Answer} {runtime : Runtime}

structure Daemon (sys : System Op Answer) (runtime : Runtime) where
  vaults : sys.Config
  tokens : runtime.tokens.State
  /-- The tokens that the host application has. -/
  hosts : List runtime.tokens.Token
  /-- The monotonic clock, in nanoseconds. -/
  now : Nat
  tasks : Nat → Option (CleanupTask runtime.tokens.Token)
  logs : List String

/-- What is logged after a sweep. -/
def sweepLine : Except VaultError Nat → String
  | .ok 0 => "Periodic sweep: no expired proofs"
  | .ok count => "Periodic sweep removed " ++ toString count ++ " expired proof(s)"
  | .error error => "Cleanup sweep failed: " ++ error.toString

namespace Daemon

/-- A call of the vault is made. -/
def invoke (config : sys.Config) (tid : Nat) (call : sys.Call) : sys.Config :=
  { config with threads := Function.update config.threads tid (some ⟨call, [], sys.code call⟩) }

/-- The next step of a task, with the vault after it and what it logs; `none` while the
sweep goes on, and after the end. A sweep that begins is call `tid`. -/
def poll (cleaning : Cleaning sys) (daemon : Daemon sys runtime) (tid : Nat)
    (task : CleanupTask runtime.tokens.Token) :
    Option (CleanupTask runtime.tokens.Token × sys.Config × List String) :=
  match task.phase with
  | .spawned =>
      -- `time::interval` panics.
      if task.interval = 0 then some ({ task with phase := .ended }, daemon.vaults, [])
      else some ({ task with phase := .selecting, start := daemon.now, deadline := daemon.now }, daemon.vaults,
        ["Cleanup task started (interval: " ++ toString (task.interval / 1000000000) ++ "s)"])
  | .selecting =>
      if runtime.tokens.isCancelled daemon.tokens task.cancel then
        some ({ task with phase := .ended }, daemon.vaults, ["Cleanup task stopping", "Cleanup task stopped"])
      else some ({ task with phase := .ticking }, daemon.vaults, [])
  | .ticking =>
      if daemon.now < task.deadline then some ({ task with phase := .parked }, daemon.vaults, [])
      else
        match daemon.vaults.threads tid with
        | some _ => none
        | none => some ({ task with
            phase := .sweeping tid
            deadline := runtime.next task.interval task.deadline daemon.now
            begun := ⟨tid, daemon.now⟩ :: task.begun }, invoke daemon.vaults tid cleaning.cleanup, [])
  | .parked => some ({ task with phase := .selecting }, daemon.vaults, [])
  | .sweeping sweep =>
      match daemon.vaults.threads sweep with
      | some ⟨_, _, .done result⟩ =>
          some ({ task with phase := .selecting }, daemon.vaults, [sweepLine (cleaning.removed result)])
      | some ⟨_, _, .step op _⟩ =>
          if cleaning.panics op then some ({ task with phase := .ended }, daemon.vaults, []) else none
      | none => none
  | .ended => none

inductive Label (sys : System Op Answer) (runtime : Runtime) where
  /-- Anything that happens in the vault but the beginning of a sweep. -/
  | vault (label : sys.Label)
  | pass (now : Nat)
  | childToken (parent : runtime.tokens.Token)
  | cancel (token : runtime.tokens.Token)
  | spawn (id interval : Nat) (parent : runtime.tokens.Token)
  | stop (id : Nat)
  | poll (id : Nat)

variable {cleaning : Cleaning sys}

inductive Step (cleaning : Cleaning sys) : Daemon sys runtime → Label sys runtime → Daemon sys runtime → Prop where
  | vault {daemon label vaults} (step : System.Step daemon.vaults label vaults) :
      Step cleaning daemon (.vault label) { daemon with vaults }
  | pass {daemon now} (later : daemon.now ≤ now) : Step cleaning daemon (.pass now) { daemon with now }
  | childToken {daemon parent} (held : parent ∈ daemon.hosts) :
      Step cleaning daemon (.childToken parent) { daemon with
        tokens := (runtime.tokens.childToken daemon.tokens parent).2
        hosts := (runtime.tokens.childToken daemon.tokens parent).1 :: daemon.hosts }
  | cancel {daemon token} (held : token ∈ daemon.hosts) :
      Step cleaning daemon (.cancel token) { daemon with tokens := runtime.tokens.cancel daemon.tokens token }
  /-- `spawn_cleanup_task` -/
  | spawn {daemon id parent} (interval : Nat) (free : daemon.tasks id = none) (held : parent ∈ daemon.hosts) :
      Step cleaning daemon (.spawn id interval parent) { daemon with
        tokens := (runtime.tokens.childToken daemon.tokens parent).2
        tasks := Function.update daemon.tasks id (some {
          parent
          cancel := (runtime.tokens.childToken daemon.tokens parent).1
          interval
          phase := .spawned
          start := daemon.now
          deadline := daemon.now
          begun := [] }) }
  /-- `CleanupTask::stop` -/
  | stop {daemon id task} (found : daemon.tasks id = some task) :
      Step cleaning daemon (.stop id) { daemon with tokens := runtime.tokens.cancel daemon.tokens task.cancel }
  | poll {daemon : Daemon sys runtime} {id task tid task' vaults logs} (found : daemon.tasks id = some task)
      (polled : daemon.poll cleaning tid task = some (task', vaults, logs)) :
      Step cleaning daemon (.poll id) { daemon with
        vaults
        tasks := Function.update daemon.tasks id (some task')
        logs := daemon.logs ++ logs }

inductive Run (cleaning : Cleaning sys) :
    Daemon sys runtime → List (Label sys runtime) → Daemon sys runtime → Prop where
  | refl (daemon) : Run cleaning daemon [] daemon
  | snoc {first labels daemon label last} (run : Run cleaning first labels daemon)
      (step : Step cleaning daemon label last) : Run cleaning first (labels ++ [label]) last

variable {daemon last first : Daemon sys runtime} {task task' : CleanupTask runtime.tokens.Token}
  {tid id tolerance : Nat} {vaults : sys.Config} {logs : List String} {labels : List (Label sys runtime)}
  {label : Label sys runtime}

/-- What one step of a task can be. -/
inductive Polled (cleaning : Cleaning sys) (daemon : Daemon sys runtime) (tid : Nat)
    (task : CleanupTask runtime.tokens.Token) : CleanupTask runtime.tokens.Token → sys.Config → Prop where
  | panics (phase : task.phase = .spawned) (zero : task.interval = 0) :
      Polled cleaning daemon tid task { task with phase := .ended } daemon.vaults
  | starts (phase : task.phase = .spawned) (positive : 0 < task.interval) :
      Polled cleaning daemon tid task
        { task with phase := .selecting, start := daemon.now, deadline := daemon.now } daemon.vaults
  | ends (phase : task.phase = .selecting)
      (cancelled : runtime.tokens.isCancelled daemon.tokens task.cancel = true) :
      Polled cleaning daemon tid task { task with phase := .ended } daemon.vaults
  | goesOn (phase : task.phase = .selecting)
      (running : runtime.tokens.isCancelled daemon.tokens task.cancel = false) :
      Polled cleaning daemon tid task { task with phase := .ticking } daemon.vaults
  | parks (phase : task.phase = .ticking) (early : daemon.now < task.deadline) :
      Polled cleaning daemon tid task { task with phase := .parked } daemon.vaults
  | begins (phase : task.phase = .ticking) (due : task.deadline ≤ daemon.now)
      (free : daemon.vaults.threads tid = none) :
      Polled cleaning daemon tid task { task with
        phase := .sweeping tid
        deadline := runtime.next task.interval task.deadline daemon.now
        begun := ⟨tid, daemon.now⟩ :: task.begun } (invoke daemon.vaults tid cleaning.cleanup)
  | wakes (phase : task.phase = .parked) :
      Polled cleaning daemon tid task { task with phase := .selecting } daemon.vaults
  | swept {sweep thread result} (phase : task.phase = .sweeping sweep)
      (found : daemon.vaults.threads sweep = some thread) (returned : thread.Returned result) :
      Polled cleaning daemon tid task { task with phase := .selecting } daemon.vaults
  | dies {sweep thread op next} (phase : task.phase = .sweeping sweep)
      (found : daemon.vaults.threads sweep = some thread) (panicked : thread.rest = .step op next)
      (panics : cleaning.panics op = true) :
      Polled cleaning daemon tid task { task with phase := .ended } daemon.vaults

theorem poll_inv (polled : daemon.poll cleaning tid task = some (task', vaults, logs)) :
    Polled cleaning daemon tid task task' vaults := by
  unfold poll at polled
  split at polled
  · rename_i phase
    split at polled
    · rename_i zero
      cases polled
      exact .panics phase zero
    · rename_i positive
      cases polled
      exact .starts phase (Nat.pos_of_ne_zero positive)
  · rename_i phase
    split at polled
    · rename_i cancelled
      cases polled
      exact .ends phase cancelled
    · rename_i running
      cases polled
      exact .goesOn phase (Bool.eq_false_of_not_eq_true running)
  · rename_i phase
    split at polled
    · rename_i early
      cases polled
      exact .parks phase early
    · rename_i due
      split at polled
      · contradiction
      · rename_i free
        cases polled
        exact .begins phase (Nat.le_of_not_lt due) free
  · rename_i phase
    cases polled
    exact .wakes phase
  · rename_i sweep phase
    split at polled
    · rename_i found
      cases polled
      exact .swept phase found rfl
    · rename_i found
      split at polled
      · rename_i panics
        cases polled
        exact .dies phase found rfl panics
      · contradiction
    · contradiction
  · contradiction

/-- Calls of the vault are not forgotten, and what is over is over. -/
def Grows (cleaning : Cleaning sys) (before after : sys.Config) : Prop :=
  ∀ tid thread, before.threads tid = some thread → ∃ later, after.threads tid = some later ∧
    later.call = thread.call ∧ (cleaning.Over thread → cleaning.Over later)

theorem grows_refl (config : sys.Config) : Grows cleaning config config :=
  fun _ thread found => ⟨thread, found, rfl, id⟩

theorem grows_of_step {config : sys.Config} {label : sys.Label} (step : System.Step config label vaults) :
    Grows cleaning config vaults := by
  intro tid thread found
  cases step with
  | @invoke other call free =>
      have different : tid ≠ other := by
        intro same
        rw [same, free] at found
        contradiction
      exact ⟨thread, (Function.update_of_ne different ..).trans found, rfl, id⟩
  | @act other call past op next answer shared running performed =>
      by_cases same : tid = other
      · subst same
        rw [running, Option.some.injEq] at found
        subst found
        refine ⟨_, Function.update_self .., rfl, fun done => ?_⟩
        rcases done with ⟨result, returned⟩ | ⟨op', next', here, panics⟩
        · contradiction
        · cases here
          exact absurd performed (cleaning.last panics)
      · exact ⟨thread, (Function.update_of_ne same ..).trans found, rfl, id⟩
  | drift changed => exact ⟨thread, found, rfl, id⟩

/-- The step of a task is none of the vault, or makes a call. -/
theorem Polled.vault_step (polled : Polled cleaning daemon tid task task' vaults) :
    vaults = daemon.vaults ∨ System.Step daemon.vaults (.invoke tid cleaning.cleanup) vaults := by
  cases polled with
  | begins phase due free => exact .inr (.invoke free)
  | _ => exact .inl rfl

theorem Polled.grows (polled : Polled cleaning daemon tid task task' vaults) :
    Grows cleaning daemon.vaults vaults := by
  rcases polled.vault_step with rfl | step
  · exact grows_refl _
  · exact grows_of_step step

theorem Step.grows (step : Step cleaning daemon label last) :
    Grows cleaning daemon.vaults last.vaults ∧ daemon.now ≤ last.now := by
  cases step with
  | vault step => exact ⟨grows_of_step step, Nat.le_refl _⟩
  | pass later => exact ⟨grows_refl _, later⟩
  | poll found polled => exact ⟨(poll_inv polled).grows, Nat.le_refl _⟩
  | _ => exact ⟨grows_refl _, Nat.le_refl _⟩

theorem Run.trans {middle : Daemon sys runtime} {labels' : List (Label sys runtime)}
    (front : Run cleaning first labels middle) (back : Run cleaning middle labels' last) :
    Run cleaning first (labels ++ labels') last := by
  induction back with
  | refl => simpa using front
  | snoc _ step ih =>
      rw [← List.append_assoc]
      exact .snoc ih step

/-- A run of the daemon is a run of the vault. -/
theorem Run.vault_run (run : Run cleaning first labels last) :
    ∃ labels', System.Run first.vaults labels' last.vaults := by
  induction run with
  | refl => exact ⟨[], .refl _⟩
  | snoc _ step ih =>
      obtain ⟨labels', run⟩ := ih
      cases step with
      | vault step => exact ⟨_, .snoc run trivial step⟩
      | poll found polled =>
          rcases (poll_inv polled).vault_step with same | step
          · simp only [same]
            exact ⟨labels', run⟩
          · exact ⟨_, .snoc run trivial step⟩
      | _ => exact ⟨labels', run⟩

theorem find_task {tasks : Nat → Option (CleanupTask runtime.tokens.Token)} {other : Nat}
    (found : Function.update tasks id (some task) other = some task') :
    other = id ∧ task' = task ∨ other ≠ id ∧ tasks other = some task' := by
  by_cases same : other = id
  · subst same
    rw [Function.update_self, Option.some.injEq] at found
    exact .inl ⟨rfl, found.symm⟩
  · rw [Function.update_of_ne same] at found
    exact .inr ⟨same, found⟩

/-- A task found after a step was there before, was just spawned, or has taken the step. -/
theorem Step.task_inv (step : Step cleaning daemon label last) {id : Nat} (found : last.tasks id = some task') :
    daemon.tasks id = some task' ∨
    (∃ interval, label = .spawn id interval task'.parent ∧ daemon.tasks id = none ∧ task'.phase = .spawned ∧
      task'.begun = [] ∧ task'.deadline = task'.start) ∨
    ∃ tid task, label = .poll id ∧ daemon.tasks id = some task ∧ Polled cleaning daemon tid task task' last.vaults := by
  cases step with
  | @spawn other parent interval free held =>
      rcases find_task found with ⟨rfl, rfl⟩ | ⟨_, before⟩
      · exact .inr (.inl ⟨interval, rfl, free, rfl, rfl, rfl⟩)
      · exact .inl before
  | @poll other task tid moved _ _ foundBefore polled =>
      rcases find_task found with ⟨rfl, rfl⟩ | ⟨_, before⟩
      · exact .inr (.inr ⟨tid, task, rfl, foundBefore, poll_inv polled⟩)
      · exact .inl before
  | _ => exact .inl found

/-- The call of a sweep is a cleanup, and over unless the task waits for it. -/
def Made (cleaning : Cleaning sys) (vaults : sys.Config) (phase : CleanupPhase) (sweep : Sweep) : Prop :=
  ∃ thread, vaults.threads sweep.tid = some thread ∧ thread.call = cleaning.cleanup ∧
    (phase = .sweeping sweep.tid ∨ cleaning.Over thread)

structure Kept (cleaning : Cleaning sys) (tolerance : Nat) (daemon : Daemon sys runtime)
    (task : CleanupTask runtime.tokens.Token) : Prop where
  fired : Fired tolerance task.interval task.start (task.begun.map Sweep.instant) task.deadline
  unstarted : task.phase = .spawned → task.begun = []
  positive : 0 < task.interval ∨ task.phase = .spawned ∨ task.phase = .ended
  past : ∀ sweep ∈ task.begun, sweep.instant ≤ daemon.now
  made : ∀ sweep ∈ task.begun, Made cleaning daemon.vaults task.phase sweep
  latest : ∀ tid, task.phase = .sweeping tid → ∃ sweep earlier, task.begun = sweep :: earlier ∧ sweep.tid = tid
  distinct : (task.begun.map Sweep.tid).Nodup

theorem Made.grow {phase phase' : CleanupPhase} {sweep : Sweep} {before after : sys.Config}
    (made : Made cleaning before phase sweep) (grows : Grows cleaning before after)
    (ends : phase = .sweeping sweep.tid → phase' = .sweeping sweep.tid ∨
      ∃ thread, before.threads sweep.tid = some thread ∧ cleaning.Over thread) :
    Made cleaning after phase' sweep := by
  obtain ⟨thread, found, called, state⟩ := made
  obtain ⟨later, foundLater, calledLater, stays⟩ := grows _ thread found
  refine ⟨later, foundLater, calledLater.trans called, ?_⟩
  rcases state with sweeping | done
  · rcases ends sweeping with still | ⟨other, foundOther, done⟩
    · exact .inl still
    · rw [found, Option.some.injEq] at foundOther
      subst foundOther
      exact .inr (stays done)
  · exact .inr (stays done)

/-- What others do leaves a task as it is. -/
theorem Kept.others (kept : Kept cleaning tolerance daemon task) (grows : Grows cleaning daemon.vaults last.vaults)
    (later : daemon.now ≤ last.now) : Kept cleaning tolerance last task :=
  { kept with
    past := fun sweep member => (kept.past sweep member).trans later
    made := fun sweep member => (kept.made sweep member).grow grows .inl }

/-- A step that begins no sweep. -/
theorem Kept.move (kept : Kept cleaning tolerance daemon task) {phase : CleanupPhase}
    (started : phase ≠ .spawned) (positive : 0 < task.interval ∨ phase = .ended)
    (idle : ∀ tid, phase ≠ .sweeping tid)
    (ends : ∀ tid, task.phase = .sweeping tid →
      ∃ thread, daemon.vaults.threads tid = some thread ∧ cleaning.Over thread) :
    Kept cleaning tolerance daemon { task with phase } where
  fired := kept.fired
  unstarted := fun same => absurd same started
  positive := positive.imp_right .inr
  past := kept.past
  made sweep member := (kept.made sweep member).grow (grows_refl _) fun sweeping => .inr (ends _ sweeping)
  latest tid same := absurd same (idle tid)
  distinct := kept.distinct

theorem Kept.polled (kept : Kept cleaning tolerance daemon task) (skips : Skips tolerance runtime.next)
    (polled : Polled cleaning daemon tid task task' vaults) : Kept cleaning tolerance { daemon with vaults } task' := by
  have running (phase : task.phase ≠ .spawned ∧ task.phase ≠ .ended) : 0 < task.interval :=
    kept.positive.resolve_right fun other => other.elim phase.1 phase.2
  cases polled with
  | panics phase zero => exact kept.move (by simp) (.inr rfl) (by simp) (by simp [phase])
  | starts phase positive =>
      have none := kept.unstarted phase
      refine ⟨?_, fun _ => none, .inl positive, ?_, ?_, by simp, ?_⟩
      · rw [none]
        exact .start
      all_goals simp [none]
  | ends phase cancelled => exact kept.move (by simp) (.inr rfl) (by simp) (by simp [phase])
  | goesOn phase running' => exact kept.move (by simp) (.inl (running (by simp [phase]))) (by simp) (by simp [phase])
  | parks phase early => exact kept.move (by simp) (.inl (running (by simp [phase]))) (by simp) (by simp [phase])
  | wakes phase => exact kept.move (by simp) (.inl (running (by simp [phase]))) (by simp) (by simp [phase])
  | @swept sweep thread result phase found returned =>
      refine kept.move (by simp) (.inl (running (by simp [phase]))) (by simp) fun tid same => ?_
      rw [phase, CleanupPhase.sweeping.injEq] at same
      subst same
      exact ⟨thread, found, .inl ⟨result, returned⟩⟩
  | @dies sweep thread op next phase found panicked panics =>
      refine kept.move (by simp) (.inr rfl) (by simp) fun tid same => ?_
      rw [phase, CleanupPhase.sweeping.injEq] at same
      subst same
      exact ⟨thread, found, .inr ⟨op, next, panicked, panics⟩⟩
  | begins phase due free =>
      have positive := running (by simp [phase])
      have unused : ∀ sweep ∈ task.begun, sweep.tid ≠ tid := by
        intro sweep member same
        obtain ⟨thread, found, _⟩ := kept.made sweep member
        rw [same, free] at found
        contradiction
      refine ⟨kept.fired.fire skips positive due, by simp, .inl positive, ?_, ?_, ?_, ?_⟩
      · exact List.forall_mem_cons.mpr ⟨Nat.le_refl _, kept.past⟩
      · refine List.forall_mem_cons.mpr ⟨⟨_, Function.update_self .., rfl, .inl rfl⟩, fun sweep member => ?_⟩
        refine (kept.made sweep member).grow (grows_of_step (.invoke free)) fun sweeping => ?_
        rw [phase] at sweeping
        contradiction
      · intro other same
        cases same
        exact ⟨_, _, rfl, rfl⟩
      · rw [List.map_cons, List.nodup_cons]
        refine ⟨fun member => ?_, kept.distinct⟩
        obtain ⟨sweep, member, same⟩ := List.mem_map.mp member
        exact unused sweep member same

theorem Kept.step (skips : Skips tolerance runtime.next)
    (kept : ∀ id task, daemon.tasks id = some task → Kept cleaning tolerance daemon task)
    (step : Step cleaning daemon label last) :
    ∀ id task, last.tasks id = some task → Kept cleaning tolerance last task := by
  intro id task' found
  obtain ⟨grows, later⟩ := step.grows
  rcases step.task_inv found with before | ⟨interval, rfl, _, phase, none, deadline⟩ | ⟨tid, task, rfl, before, polled⟩
  · exact (kept id task' before).others grows later
  · refine ⟨?_, fun _ => none, .inr (.inl phase), ?_, ?_, by simp [phase], ?_⟩
    · rw [none, deadline]
      exact .start
    all_goals simp [none]
  · exact ((kept id task before).polled skips polled).others (grows_refl _) later

theorem tasks_kept (skips : Skips tolerance runtime.next) (fresh : ∀ id, first.tasks id = none)
    (run : Run cleaning first labels last) :
    ∀ id task, last.tasks id = some task → Kept cleaning tolerance last task := by
  induction run with
  | refl =>
      intro id task found
      rw [fresh] at found
      contradiction
  | snoc _ step ih => exact Kept.step skips ih step

/-- A task sweeps no earlier than its timer says, does not make up for the ticks it has
missed, and begins no sweep before the last one is over. -/
structure Paced (cleaning : Cleaning sys) (tolerance : Nat) (daemon : Daemon sys runtime)
    (task : CleanupTask runtime.tokens.Token) : Prop where
  onSchedule : ∀ later sweep earlier, task.begun = later ++ sweep :: earlier →
    task.start + earlier.length * task.interval ≤ sweep.instant ∧ sweep.instant ≤ daemon.now
  noBurst : tolerance ≤ task.interval → ∀ later last between first earlier,
    task.begun = later ++ last :: (between ++ first :: earlier) →
      first.instant + between.length * task.interval ≤ last.instant
  oneAtATime : ∀ sweep earlier, task.begun = sweep :: earlier →
    (∃ thread, daemon.vaults.threads sweep.tid = some thread ∧ thread.call = cleaning.cleanup) ∧
      ∀ before ∈ earlier, ∃ thread, daemon.vaults.threads before.tid = some thread ∧
        thread.call = cleaning.cleanup ∧ cleaning.Over thread

theorem Kept.paced (kept : Kept cleaning tolerance daemon task) : Paced cleaning tolerance daemon task where
  onSchedule := by
    intro later sweep earlier same
    have fired := kept.fired
    rw [same, List.map_append, List.map_cons] at fired
    have due := fired.onSchedule
    rw [List.length_map] at due
    exact ⟨due, kept.past sweep (by simp [same])⟩
  noBurst := by
    intro enough later last between first earlier same
    have fired := kept.fired
    rw [same, List.map_append, List.map_cons, List.map_append, List.map_cons] at fired
    have spaced := fired.spaced enough
    rw [List.length_map] at spaced
    exact spaced
  oneAtATime := by
    intro sweep earlier same
    obtain ⟨thread, found, called, _⟩ := kept.made sweep (by simp [same])
    refine ⟨⟨thread, found, called⟩, fun before member => ?_⟩
    obtain ⟨thread, found, called, state⟩ := kept.made before (by simp [same, member])
    rcases state with sweeping | done
    · obtain ⟨latest, others, same', latestTid⟩ := kept.latest _ sweeping
      have distinct := kept.distinct
      rw [same, List.map_cons, List.nodup_cons] at distinct
      injection same'.symm.trans same with head _
      subst head
      exact absurd (List.mem_map.mpr ⟨before, member, latestTid.symm⟩) distinct.1
    · exact ⟨thread, found, called, done⟩

/-- The sweeps of every task are paced, in every run, beside any other calls of the vault
and any number of other tasks. -/
theorem cleanup_paced (skips : Skips tolerance runtime.next) (fresh : ∀ id, first.tasks id = none)
    (run : Run cleaning first labels last) (found : last.tasks id = some task) : Paced cleaning tolerance last task :=
  (tasks_kept skips fresh run id task found).paced

/-- A process that has one token, and has done nothing. -/
def opened (sys : System Op Answer) (state : sys.State) : Daemon sys .concrete where
  vaults := Config.start state
  tokens := .root
  hosts := [(0 : Nat)]
  now := 0
  tasks _ := none
  logs := []

theorem Run.poll_to (run : Run cleaning first labels daemon) (found : daemon.tasks id = some task)
    (polled : daemon.poll cleaning tid task = some (task', vaults, logs)) :
    ∃ labels' last, Run cleaning first labels' last ∧ last.tasks id = some task' ∧ last.vaults = vaults ∧
      last.now = daemon.now ∧ last.tokens = daemon.tokens ∧ last.hosts = daemon.hosts :=
  ⟨_, _, .snoc run (.poll found polled), Function.update_self .., rfl, rfl, rfl, rfl⟩

theorem Run.vaults_run {ok : sys.Config → sys.Label → Prop} {labels' : List sys.Label}
    (run : Run cleaning first labels daemon) (vaultRun : System.RunWhere ok daemon.vaults labels' vaults) :
    ∃ labels'', Run cleaning first labels'' { daemon with vaults } := by
  induction vaultRun with
  | refl => exact ⟨labels, run⟩
  | snoc _ _ step ih =>
      obtain ⟨labels'', run⟩ := ih
      exact ⟨_, .snoc run (.vault step)⟩

/-- A task with an interval of one second, which looks at its token next. -/
theorem opened_selecting (cleaning : Cleaning sys) (state : sys.State) :
    ∃ labels, ∃ daemon : Daemon sys .concrete, Run cleaning (opened sys state) labels daemon ∧
      daemon.tasks 0 = some ⟨(0 : Nat), (1 : Nat), 1000000000, .selecting, 0, 0, []⟩ ∧
      daemon.vaults = Config.start state ∧ daemon.now = 0 ∧ daemon.tokens = TokenTable.root.childToken 0 ∧
      daemon.hosts = [(0 : Nat)] := by
  have spawned : ∃ labels, ∃ daemon : Daemon sys .concrete, Run cleaning (opened sys state) labels daemon ∧
      daemon.tasks 0 = some ⟨(0 : Nat), (1 : Nat), 1000000000, .spawned, 0, 0, []⟩ ∧
      daemon.vaults = Config.start state ∧ daemon.now = 0 ∧ daemon.tokens = TokenTable.root.childToken 0 ∧
      daemon.hosts = [(0 : Nat)] :=
    ⟨_, _, .snoc (.refl _) (@Step.spawn _ _ _ _ cleaning (opened sys state) 0 (0 : Nat) 1000000000 rfl
      List.mem_cons_self), rfl, rfl, rfl, rfl, rfl⟩
  obtain ⟨_, daemon, run, found, vaults, now, tokens, hosts⟩ := spawned
  obtain ⟨_, started, run, found, vaults', now', tokens', hosts'⟩ :=
    @Run.poll_to _ _ _ _ _ _ _ _ _ 0 _ _ _ _ run found rfl
  rw [now] at found
  exact ⟨_, started, run, found, vaults'.trans vaults, now'.trans now, tokens'.trans tokens, hosts'.trans hosts⟩

/-- Its token was not cancelled, and it looks at its timer next. -/
theorem opened_ticking (cleaning : Cleaning sys) (state : sys.State) :
    ∃ labels, ∃ daemon : Daemon sys .concrete, Run cleaning (opened sys state) labels daemon ∧
      daemon.tasks 0 = some ⟨(0 : Nat), (1 : Nat), 1000000000, .ticking, 0, 0, []⟩ ∧
      daemon.vaults = Config.start state ∧ daemon.now = 0 ∧ daemon.tokens = TokenTable.root.childToken 0 ∧
      daemon.hosts = [(0 : Nat)] := by
  obtain ⟨_, started, run, found, vaults, now, tokens, hosts⟩ := opened_selecting cleaning state
  have running : Runtime.concrete.tokens.isCancelled started.tokens (1 : Nat) = false := by
    rw [tokens]
    rfl
  obtain ⟨_, ticking, run, found, vaults', now', tokens', hosts'⟩ :=
    @Run.poll_to _ _ _ _ _ _ _ _ _ 0 _ _ _ _ run found (if_neg (Bool.eq_false_iff.mp running))
  exact ⟨_, ticking, run, found, vaults'.trans vaults, now'.trans now, tokens'.trans tokens, hosts'.trans hosts⟩

/-- A task with an interval of one second, whose second sweep comes after two and a half. -/
theorem cleanup_paced_late :
    ∃ last : Daemon (vaultSystem .keyed) .concrete, ∃ task, last.tasks 0 = some task ∧
      task.begun = [⟨1, 2500000000⟩, ⟨0, 0⟩] ∧ task.deadline = 3000000000 ∧
      Paced (vaultCleaning .keyed) 5000000 last task := by
  obtain ⟨_, ticking, run, found, vaults, now, tokens, _⟩ :=
    opened_ticking (vaultCleaning .keyed) (.initial .epoch)
  have due : ¬ ticking.now < 0 := Nat.not_lt_zero _
  have free : ticking.vaults.threads 0 = none := by rw [vaults]; rfl
  obtain ⟨_, sweeping, run, found, vaults', now', tokens', _⟩ :=
    @Run.poll_to _ _ _ _ _ _ _ _ _ 0 0 _ _ _ run found (by simp only [poll, due, if_false, free]; rfl)
  rw [vaults] at vaults'
  -- The sweep finds nothing, and the time passes.
  have swept : ∃ labels, ∃ daemon : Daemon (vaultSystem .keyed) .concrete,
      Run (vaultCleaning .keyed) (opened _ (.initial .epoch)) labels daemon ∧
      daemon.tasks 0 = sweeping.tasks 0 ∧ daemon.now = 2500000000 ∧ daemon.tokens = sweeping.tokens ∧
      (∃ past, daemon.vaults.threads 0 = some ⟨.cleanup, past, .done (.ok (.removed 0))⟩) ∧
      daemon.vaults.threads 1 = none := by
    obtain ⟨vaults, tokens, hosts, clock, tasks, logs⟩ := sweeping
    cases vaults'
    have acted : VaultAct (.initial .epoch) ⟨.storage .deleteExpired, .ok 0⟩ (.initial .epoch) :=
      .perform .deleteExpired (List.mem_singleton_self _)
    obtain ⟨next, running, ends⟩ : ∃ next,
        (invoke (vaultStart .keyed .epoch) 0 (vaultCleaning .keyed).cleanup).threads 0 =
          some ⟨.cleanup, [], .step (.storage .deleteExpired) next⟩ ∧
        next (.ok 0) = .done (.ok (.removed 0)) := ⟨_, rfl, rfl⟩
    have later : clock ≤ 2500000000 := by
      have started : clock = 0 := now'.trans now
      rw [started]
      exact Nat.zero_le _
    refine ⟨_, _, .snoc (.snoc run (.vault (.act running acted))) (.pass later), rfl, rfl, rfl,
      ⟨[⟨.storage .deleteExpired, .ok 0⟩], ?_⟩, rfl⟩
    rw [← ends]
    rfl
  obtain ⟨_, daemon, run, found', now'', tokens'', ⟨past, returned⟩, free'⟩ := swept
  rw [found] at found'
  obtain ⟨_, selecting, run, found, vaults, clock, same, _⟩ :=
    @Run.poll_to _ _ _ _ _ _ _ _ _ 0 0 _ _ _ run found' (by simp only [poll, returned]; rfl)
  have running : Runtime.concrete.tokens.isCancelled selecting.tokens (1 : Nat) = false := by
    rw [same, tokens'', tokens', tokens]
    rfl
  obtain ⟨_, waiting, run, found, vaults', clock', _⟩ :=
    @Run.poll_to _ _ _ _ _ _ _ _ _ 0 0 _ _ _ run found (if_neg (Bool.eq_false_iff.mp running))
  have reached : waiting.now = 2500000000 := clock'.trans (clock.trans now'')
  have unused : waiting.vaults.threads 1 = none := by rw [vaults', vaults, free']
  have second : Runtime.concrete.next 1000000000 0 ticking.now = 1000000000 := by
    simp [now, Runtime.concrete, skipMissed]
  have third : Runtime.concrete.next 1000000000 1000000000 2500000000 = 3000000000 := by
    simp [Runtime.concrete, skipMissed]
  rw [second, now] at found
  have due : ¬ 2500000000 < 1000000000 := by simp
  obtain ⟨_, last, run, found, _⟩ := @Run.poll_to _ _ _ _ _ _ _ _ _ 1 0 _ _ _ run found
    (by simp only [poll, reached, due, if_false, unused, third]; rfl)
  exact ⟨last, _, found, rfl, rfl, cleanup_paced skipMissed_skips (fun _ => rfl) run found⟩

end Daemon

end TariVault
