import Mathlib.Logic.Relation
import TariVault.Process.Main
import TariVault.Vault.AloneOverFiles
import TariVault.Vault.CleanupShutdown

namespace TariVault

open Program Main Stage

/-! # The process from start to end

`main` runs beside the calls of the vault and the cleanup task that it has started.
-/

variable {Op : Type} {Answer : Op → Type} {sys : System Op Answer} {runtime : Runtime} {β : Type} {A : β → Type}

/-- What goes on by itself. -/
def Daemon.Label.Own : Daemon.Label sys runtime → Prop
  | .vault _ => True
  | .pass _ => True
  | .poll _ => True
  | _ => False

def MainOp.OfMachine : MainOp → Prop
  | .cleanup => False
  | .spawnCleanupTask _ => False
  | .startServer .. => False
  | .cancel => False
  | .taskStopped => False
  | _ => True

/-- What `main` works with: the vault, and the token it makes. -/
structure Site (sys : System Op Answer) (runtime : Runtime) (A : β → Type) where
  cleaning : Cleaning sys
  shutdown : runtime.tokens.Token
  isLoopback : String → Option Bool
  vault : ProofVault A

/-- How `main` is answered. -/
inductive MainAct (site : Site sys runtime A) :
    Daemon sys runtime → Event MainOp.Answer → Daemon sys runtime → Prop where
  /-- A cleanup of the vault has returned. -/
  | cleanup {daemon tid thread result} (found : daemon.vaults.threads tid = some thread)
      (called : thread.call = site.cleaning.cleanup) (returned : thread.Returned result) :
      MainAct site daemon ⟨.cleanup, site.cleaning.removed result⟩ daemon
  | spawnCleanupTask {daemon interval daemon'}
      (step : Daemon.Step site.cleaning daemon (.spawn 0 interval site.shutdown) daemon') :
      MainAct site daemon ⟨.spawnCleanupTask interval, ()⟩ daemon'
  | startServer {daemon bindAddr authToken tls insecureNoTls maxProofSizeBytes server}
      (started : TariVault.startServer site.isLoopback bindAddr site.vault authToken tls insecureNoTls
        maxProofSizeBytes = .ok server) :
      MainAct site daemon ⟨.startServer bindAddr authToken tls insecureNoTls maxProofSizeBytes, .ok ()⟩ daemon
  | startFails {daemon bindAddr authToken tls insecureNoTls maxProofSizeBytes} (error : Anyhow) :
      MainAct site daemon ⟨.startServer bindAddr authToken tls insecureNoTls maxProofSizeBytes, .error error⟩ daemon
  | cancel {daemon daemon'} (step : Daemon.Step site.cleaning daemon (.cancel site.shutdown) daemon') :
      MainAct site daemon ⟨.cancel, ()⟩ daemon'
  /-- `CleanupTask::stopped` -/
  | taskStopped {daemon task} (found : daemon.tasks 0 = some task) (ended : task.phase = .ended) :
      MainAct site daemon ⟨.taskStopped, ()⟩ daemon
  | machine {daemon op} (answer : op.Answer) (outside : op.OfMachine) : MainAct site daemon ⟨op, answer⟩ daemon

structure Lifecycle (sys : System Op Answer) (runtime : Runtime) where
  past : List (Event MainOp.Answer)
  rest : Program MainOp MainOp.Answer (Except Anyhow Unit)
  daemon : Daemon sys runtime

namespace Lifecycle

inductive Step (site : Site sys runtime A) : Lifecycle sys runtime → Lifecycle sys runtime → Prop where
  | main {past op next answer daemon daemon'} (act : MainAct site daemon ⟨op, answer⟩ daemon') :
      Step site ⟨past, .step op next, daemon⟩ ⟨past ++ [⟨op, answer⟩], next answer, daemon'⟩
  | daemon {past rest daemon label daemon'} (own : Daemon.Label.Own label)
      (step : Daemon.Step site.cleaning daemon label daemon') :
      Step site ⟨past, rest, daemon⟩ ⟨past, rest, daemon'⟩

abbrev Reaches (site : Site sys runtime A) : Lifecycle sys runtime → Lifecycle sys runtime → Prop :=
  Relation.ReflTransGen (Step site)

/-- Nothing was done yet. -/
def opened (withFileName : String → String → String) (cli : Cli) (daemon : Daemon sys runtime) :
    Lifecycle sys runtime where
  past := []
  rest := (main withFileName cli).run
  daemon := daemon

end Lifecycle

namespace Main.Stage

variable {stage : Stage} {event : Event MainOp.Answer}

/-- There is no task. -/
def Untasked : Stage → Prop
  | .starting => True
  | .opened => True
  | .purged task => task = false
  | .serving task => task = false
  | .signalled task => task = false
  | .draining task => task = false
  | .drained task => task = false
  | .cancelled task => task = false
  | .ended => False

/-- The server has stopped. -/
def Drained : Stage → Prop
  | .drained _ => True
  | .cancelled _ => True
  | .ended => True
  | _ => False

theorem drained_of_stopping (stopping : stage.Stopping) : stage.Drained := by
  cases stage with
  | cancelled task => trivial
  | ended => trivial
  | _ => exact stopping.elim

theorem stopping_of_finished (finished : stage.Finished) : stage.Stopping := by
  cases stage with
  | cancelled task => trivial
  | ended => trivial
  | _ => exact finished.elim

/-- Nothing but `cancel` cancels. -/
theorem stopping_after (other : event.op ≠ .cancel) : (stage.after event).Stopping ↔ stage.Stopping := by
  unfold after
  split <;> first | exact Iff.rfl | contradiction

theorem untasked_of_after (untasked : (stage.after event).Untasked) : stage.Untasked := by
  unfold after at untasked
  split at untasked <;> first | exact untasked | trivial

/-- `main` waits for the task only if there is one. -/
theorem tasked_of_taskStopped (here : stage.due .taskStopped) : ¬ stage.Untasked := by
  cases stage with
  | cancelled task =>
      cases task with
      | false => exact here.elim
      | true => exact Bool.noConfusion
  | _ => exact here.elim

theorem after_taskStopped (here : stage.due .taskStopped) : stage.after ⟨.taskStopped, ()⟩ = .ended := by
  cases stage with
  | cancelled task => rfl
  | _ => exact here.elim

/-- Nothing but `spawn_cleanup_task` makes a task. -/
theorem untasked_after (here : stage.due event.op) (other : ∀ interval, event.op ≠ .spawnCleanupTask interval) :
    (stage.after event).Untasked ↔ stage.Untasked := by
  refine ⟨untasked_of_after, fun untasked => ?_⟩
  unfold after
  split <;> first
    | exact untasked
    | rfl
    | exact absurd rfl (other _)
    | exact absurd untasked (tasked_of_taskStopped here)

theorem drained_of_after (drained : (stage.after event).Drained) : stage.Drained ∨ event.op = .serverStopped := by
  unfold after at drained
  split at drained <;> first | exact .inl drained | exact .inr rfl

theorem ended_of_after (ended : stage.after event = .ended) : stage = .ended ∨ event.op = .taskStopped := by
  unfold after at ended
  split at ended <;> first | exact .inl ended | exact .inr rfl | cases ended

theorem tasked_of_spawn {interval : Nat} (here : stage.due (.spawnCleanupTask interval)) :
    ¬ (stage.after ⟨.spawnCleanupTask interval, ()⟩).Untasked := by
  cases stage with
  | purged task => exact Bool.noConfusion
  | _ => exact here.elim

theorem stopping_of_cancel (here : stage.due .cancel) : (stage.after ⟨.cancel, ()⟩).Stopping := by
  cases stage with
  | drained task => trivial
  | _ => exact here.elim

end Main.Stage

section Runs

variable {site : Site sys runtime A} {first : Daemon sys runtime} {process process' : Lifecycle sys runtime}
  {stage : Stage}

/-- The labels of a run of the daemon in which only `main` has cancelled anything. -/
structure Sparing (site : Site sys runtime A) (labels : List (Daemon.Label sys runtime)) (stage : Stage) : Prop where
  cancels : .cancel site.shutdown ∈ labels ↔ stage.Stopping
  only : ∀ token, .cancel token ∈ labels → token = site.shutdown

/-- What `main` and the rest have done by then. -/
structure Lifecycle.Kept (site : Site sys runtime A) (first : Daemon sys runtime) (process : Lifecycle sys runtime)
    (stage : Stage) : Prop where
  obeys : process.rest.Obeys due after Concludes stage
  run : ∃ labels, Daemon.Run site.cleaning first labels process.daemon ∧ Sparing site labels stage
  held : site.shutdown ∈ process.daemon.hosts
  untasked : stage.Untasked → ∀ id, process.daemon.tasks id = none
  tasked : ¬ stage.Untasked → ∃ task, process.daemon.tasks 0 = some task
  only : ∀ id task, process.daemon.tasks id = some task → id = 0
  ended : stage = .ended → ∃ task, process.daemon.tasks 0 = some task ∧ task.phase = .ended
  drained : stage.Drained → ⟨.serverStopped, ()⟩ ∈ process.past
  served : ∀ bindAddr authToken insecureNoTls maxProofSizeBytes,
    ⟨.startServer bindAddr authToken none insecureNoTls maxProofSizeBytes, .ok ()⟩ ∈ process.past →
      insecureNoTls = true ∨ site.isLoopback bindAddr = some true

/-- A task that has ended does not move. -/
theorem Daemon.ended_of_step {cleaning : Cleaning sys} {daemon last : Daemon sys runtime}
    {label : Daemon.Label sys runtime} {id : Nat} {task : CleanupTask runtime.tokens.Token}
    (step : Daemon.Step cleaning daemon label last) (found : daemon.tasks id = some task)
    (ended : task.phase = .ended) : last.tasks id = some task := by
  obtain ⟨task', found', ⟨same, _⟩ | ⟨_, tid, polled⟩⟩ := step.task_next found
  · rw [found', same]
  · exfalso
    generalize last.vaults = vaults at polled
    cases polled <;> exact absurd (ended.symm.trans ‹_›) CleanupPhase.noConfusion

theorem Sparing.own {labels : List (Daemon.Label sys runtime)} (sparing : Sparing site labels stage)
    {label : Daemon.Label sys runtime} (other : ∀ token, label ≠ .cancel token) :
    Sparing site (labels ++ [label]) stage := by
  have same (token) : .cancel token ∈ labels ++ [label] ↔ .cancel token ∈ labels := by
    simp [(other token).symm]
  exact ⟨(same _).trans sparing.cancels, fun token member => sparing.only token ((same _).mp member)⟩

theorem Lifecycle.Kept.daemon {past : List (Event MainOp.Answer)}
    {rest : Program MainOp MainOp.Answer (Except Anyhow Unit)} {daemon daemon' : Daemon sys runtime}
    {label : Daemon.Label sys runtime} (kept : Lifecycle.Kept site first ⟨past, rest, daemon⟩ stage)
    (own : Daemon.Label.Own label) (step : Daemon.Step site.cleaning daemon label daemon') :
    Lifecycle.Kept site first ⟨past, rest, daemon'⟩ stage := by
  obtain ⟨labels, run, sparing⟩ := kept.run
  have other : ∀ token, label ≠ .cancel token := by
    intro token same
    rw [same] at own
    exact own
  have before {id : Nat} {task' : CleanupTask runtime.tokens.Token} (found : daemon'.tasks id = some task') :
      ∃ task, daemon.tasks id = some task := by
    rcases step.task_inv found with before | ⟨interval, same, _⟩ | ⟨tid, task, _, before, _⟩
    · exact ⟨task', before⟩
    · rw [same] at own
      exact own.elim
    · exact ⟨task, before⟩
  refine ⟨kept.obeys, ⟨_, .snoc run step, sparing.own other⟩, ?_, ?_, ?_, ?_, ?_, kept.drained, kept.served⟩
  · cases step with
    | vault _ => exact kept.held
    | pass _ => exact kept.held
    | poll _ _ => exact kept.held
    | _ => exact own.elim
  · intro untasked id
    cases found : daemon'.tasks id with
    | none => rfl
    | some task' =>
        obtain ⟨task, before⟩ := before found
        have none_ := kept.untasked untasked id
        rw [before] at none_
        contradiction
  · intro tasked
    obtain ⟨task, found⟩ := kept.tasked tasked
    obtain ⟨task', found', _⟩ := step.task_next found
    exact ⟨task', found'⟩
  · intro id task' found
    obtain ⟨task, before⟩ := before found
    exact kept.only id task before
  · intro ended
    obtain ⟨task, found, phase⟩ := kept.ended ended
    exact ⟨task, Daemon.ended_of_step step found phase, phase⟩

variable {past : List (Event MainOp.Answer)} {op : MainOp} {answer : op.Answer}
  {next : op.Answer → Program MainOp MainOp.Answer (Except Anyhow Unit)} {daemon daemon' : Daemon sys runtime}

/-- The stage moves on with what `main` was answered. -/
theorem Lifecycle.Kept.advance (kept : Lifecycle.Kept site first ⟨past, .step op next, daemon⟩ stage)
    (run : ∃ labels, Daemon.Run site.cleaning first labels daemon' ∧ Sparing site labels (stage.after ⟨op, answer⟩))
    (held : site.shutdown ∈ daemon'.hosts)
    (untasked : (stage.after ⟨op, answer⟩).Untasked → ∀ id, daemon'.tasks id = none)
    (tasked : ¬ (stage.after ⟨op, answer⟩).Untasked → ∃ task, daemon'.tasks 0 = some task)
    (only : ∀ id task, daemon'.tasks id = some task → id = 0)
    (ended : stage = .ended ∨ op = .taskStopped → ∃ task, daemon'.tasks 0 = some task ∧ task.phase = .ended)
    (started : ∀ bindAddr authToken insecureNoTls maxProofSizeBytes, (⟨op, answer⟩ : Event MainOp.Answer) =
      ⟨.startServer bindAddr authToken none insecureNoTls maxProofSizeBytes, .ok ()⟩ →
        insecureNoTls = true ∨ site.isLoopback bindAddr = some true) :
    Lifecycle.Kept site first ⟨past ++ [⟨op, answer⟩], next answer, daemon'⟩ (stage.after ⟨op, answer⟩) := by
  refine ⟨kept.obeys.tail answer, run, held, untasked, tasked, only, ?_, ?_, ?_⟩
  · exact fun reached => ended (ended_of_after reached)
  · intro drained
    rcases drained_of_after drained with before | stopped
    · exact List.mem_append_left _ (kept.drained before)
    · subst stopped
      exact List.mem_append_right _ (List.mem_singleton_self _)
  · intro bindAddr authToken insecureNoTls maxProofSizeBytes member
    rcases List.mem_append.mp member with before | now
    · exact kept.served _ _ _ _ before
    · exact started _ _ _ _ (List.mem_singleton.mp now).symm

/-- An answer that leaves the daemon as it is. -/
theorem Lifecycle.Kept.answered (kept : Lifecycle.Kept site first ⟨past, .step op next, daemon⟩ stage)
    (other : op ≠ .cancel) (other' : ∀ interval, op ≠ .spawnCleanupTask interval)
    (ended : op = .taskStopped → ∃ task, daemon.tasks 0 = some task ∧ task.phase = .ended)
    (started : ∀ bindAddr authToken insecureNoTls maxProofSizeBytes, (⟨op, answer⟩ : Event MainOp.Answer) =
      ⟨.startServer bindAddr authToken none insecureNoTls maxProofSizeBytes, .ok ()⟩ →
        insecureNoTls = true ∨ site.isLoopback bindAddr = some true) :
    Lifecycle.Kept site first ⟨past ++ [⟨op, answer⟩], next answer, daemon⟩ (stage.after ⟨op, answer⟩) := by
  obtain ⟨labels, run, sparing⟩ := kept.run
  refine kept.advance ⟨labels, run, sparing.cancels.trans (stopping_after other).symm, sparing.only⟩ kept.held
    (fun untasked => kept.untasked (untasked_of_after untasked))
    (fun tasked => kept.tasked fun before => tasked ((untasked_after kept.obeys.head other').mpr before)) kept.only ?_
    started
  intro reached
  rcases reached with before | waited
  · exact kept.ended before
  · exact ended waited

theorem Lifecycle.Kept.spawned {interval : Nat}
    {next : Unit → Program MainOp MainOp.Answer (Except Anyhow Unit)}
    (kept : Lifecycle.Kept site first ⟨past, .step (.spawnCleanupTask interval) next, daemon⟩ stage)
    (step : Daemon.Step site.cleaning daemon (.spawn 0 interval site.shutdown) daemon') :
    Lifecycle.Kept site first ⟨past ++ [⟨.spawnCleanupTask interval, ()⟩], next (), daemon'⟩
      (stage.after ⟨.spawnCleanupTask interval, ()⟩) := by
  have here := kept.obeys.head
  obtain ⟨labels, run, sparing⟩ := kept.run
  obtain ⟨cancels, only⟩ :=
    sparing.own (by simp : ∀ token, Daemon.Label.spawn 0 interval site.shutdown ≠ .cancel token)
  refine kept.advance ⟨_, .snoc run step, cancels.trans (stopping_after (by simp)).symm, only⟩ ?_
    (fun untasked => absurd untasked (tasked_of_spawn here)) ?_ ?_ ?_ (by simp)
  · cases step
    exact kept.held
  · intro _
    cases step
    exact ⟨_, rfl⟩
  · intro id task found
    rcases step.task_inv found with before | ⟨_, same, _⟩ | ⟨_, _, same, _⟩
    · exact kept.only id task before
    · injection same with same
      exact same.symm
    · contradiction
  · intro reached
    rcases reached with over_ | waited
    · rw [over_] at here
      exact here.elim
    · contradiction

theorem Lifecycle.Kept.cancelled {next : Unit → Program MainOp MainOp.Answer (Except Anyhow Unit)}
    (kept : Lifecycle.Kept site first ⟨past, .step .cancel next, daemon⟩ stage)
    (step : Daemon.Step site.cleaning daemon (.cancel site.shutdown) daemon') :
    Lifecycle.Kept site first ⟨past ++ [⟨.cancel, ()⟩], next (), daemon'⟩ (stage.after ⟨.cancel, ()⟩) := by
  have here := kept.obeys.head
  obtain ⟨labels, run, sparing⟩ := kept.run
  have tasks : daemon'.tasks = daemon.tasks := by
    cases step
    rfl
  refine kept.advance ⟨_, .snoc run step, ?_, ?_⟩ ?_ ?_ ?_ ?_ ?_ (by simp)
  · exact iff_of_true (List.mem_append_right _ (List.mem_singleton_self _)) (stopping_of_cancel here)
  · intro token member
    rcases List.mem_append.mp member with before | now
    · exact sparing.only token before
    · cases List.mem_singleton.mp now
      rfl
  · cases step
    exact kept.held
  · rw [tasks]
    exact fun untasked => kept.untasked (untasked_of_after untasked)
  · rw [tasks]
    exact fun tasked => kept.tasked fun before => tasked ((untasked_after here (by simp)).mpr before)
  · rw [tasks]
    exact kept.only
  · intro reached
    rcases reached with over_ | waited
    · rw [over_] at here
      exact here.elim
    · contradiction

theorem Lifecycle.Kept.main (kept : Lifecycle.Kept site first ⟨past, .step op next, daemon⟩ stage)
    (act : MainAct site daemon ⟨op, answer⟩ daemon') :
    Lifecycle.Kept site first ⟨past ++ [⟨op, answer⟩], next answer, daemon'⟩ (stage.after ⟨op, answer⟩) := by
  cases act with
  | cleanup found called returned => exact kept.answered (by simp) (by simp) (by simp) (by simp)
  | startFails error => exact kept.answered (by simp) (by simp) (by simp) (by simp)
  | startServer started =>
      refine kept.answered (by simp) (by simp) (by simp) ?_
      intro bindAddr authToken insecureNoTls maxProofSizeBytes same
      cases same
      exact loopback_of_plain started (startServer_plain started)
  | taskStopped found ended => exact kept.answered (by simp) (by simp) (fun _ => ⟨_, found, ended⟩) (by simp)
  | machine answer outside =>
      refine kept.answered ?_ ?_ ?_ ?_
      · intro same
        rw [same] at outside
        exact outside
      · intro interval same
        rw [same] at outside
        exact outside
      · intro same
        rw [same] at outside
        exact outside.elim
      · intro bindAddr authToken insecureNoTls maxProofSizeBytes same
        cases same
        exact outside.elim
  | spawnCleanupTask step => exact kept.spawned step
  | cancel step => exact kept.cancelled step

/-- When nothing is left to stop, a task has ended. -/
theorem Lifecycle.Kept.tasks_ended (kept : Lifecycle.Kept site first process stage) (finished : stage.Finished)
    (id : Nat) (task : CleanupTask runtime.tokens.Token) (found : process.daemon.tasks id = some task) :
    task.phase = .ended := by
  cases stage with
  | ended =>
      obtain ⟨task', found', ended⟩ := kept.ended rfl
      rw [← kept.only id task found, found, Option.some.injEq] at found'
      rw [found']
      exact ended
  | cancelled task' =>
      have none_ := kept.untasked finished id
      rw [found] at none_
      contradiction
  | _ => exact finished.elim

theorem Lifecycle.kept_of_reaches {withFileName : String → String → String} {cli : Cli}
    (fresh : ∀ id, first.tasks id = none) (held : site.shutdown ∈ first.hosts)
    (reaches : Lifecycle.Reaches site (.opened withFileName cli first) process) :
    ∃ stage, Lifecycle.Kept site first process stage := by
  induction reaches with
  | refl =>
      refine ⟨.starting, main_obeys withFileName cli, ⟨[], .refl first, ?_, by simp⟩, held, fun _ => fresh,
        fun tasked => absurd trivial tasked, ?_, Stage.noConfusion, False.elim, by simp [opened]⟩
      · exact iff_of_false List.not_mem_nil id
      · intro id task found
        rw [opened, fresh] at found
        contradiction
  | tail _ step ih =>
      obtain ⟨stage, kept⟩ := ih
      cases step with
      | main act => exact ⟨_, kept.main act⟩
      | daemon own step => exact ⟨stage, kept.daemon own step⟩

end Runs

/-- No flags: only the level of the log has a default. -/
def Cli.plain : Cli where
  config := none
  vaultFile := none
  bind := none
  cleanupInterval := none
  logLevel := some "info"
  authToken := none
  sqlitePath := none
  tlsCert := none
  tlsKey := none
  insecureNoTls := false

def beforePurge : List (Event MainOp.Answer) :=
  [⟨.loadConfig none, .ok (.default "vault.json")⟩, ⟨.initLogging "info", ()⟩,
    ⟨.log "Starting Tari Vault v0.1.0", ()⟩, ⟨.log "Storage backend: file (vault.json)", ()⟩,
    ⟨.openFile "vault.json", .ok ()⟩]

def beforeCancel : List (Event MainOp.Answer) :=
  [⟨.ctrlC, .ok ()⟩, ⟨.log "Shutdown signal received", ()⟩, ⟨.stopServer, .ok ()⟩, ⟨.serverStopped, ()⟩,
    ⟨.log "RPC server stopped", ()⟩]

/-- `main` by default, when nothing fails, from each step that is not of the machine to
the next. -/
theorem main_leads (withFileName : String → String → String) :
    ∃ purged, Leads (main withFileName .plain).run beforePurge (.step .cleanup purged) ∧
    ∃ spawned, Leads (purged (.ok 0)) [⟨.log "Background cleanup enabled (interval: 300s)", ()⟩]
      (.step (.spawnCleanupTask 300000000000) spawned) ∧
    ∃ started, spawned () = .step (.startServer "127.0.0.1:9000" none none false 1048576) started ∧
    ∃ cancelled, Leads (started (.ok ())) beforeCancel (.step .cancel cancelled) ∧
    ∃ stopped, cancelled () = .step .taskStopped stopped ∧
      Leads (stopped ()) [⟨.log "Cleanup task stopped", ()⟩, ⟨.log "Shutdown complete", ()⟩] (.done (.ok ())) :=
  ⟨_, .step (.step (.step (.step (.step (.refl _))))), _, .step (.refl _), _, rfl,
    _, .step (.step (.step (.step (.step (.refl _))))), _, rfl, .step (.step (.refl _))⟩

theorem Lifecycle.performs {site : Site sys runtime A} {first : Lifecycle sys runtime}
    {past events : List (Event MainOp.Answer)}
    {rest final : Program MainOp MainOp.Answer (Except Anyhow Unit)} {daemon : Daemon sys runtime}
    (reaches : Lifecycle.Reaches site first ⟨past, rest, daemon⟩) (leads : Leads rest events final)
    (outside : ∀ event ∈ events, event.op.OfMachine) :
    Lifecycle.Reaches site first ⟨past ++ events, final, daemon⟩ := by
  induction leads generalizing past with
  | refl => simpa using reaches
  | @step op next answer events rest _ ih =>
      have answered := reaches.tail (.main (.machine answer (outside _ List.mem_cons_self)))
      have further := ih answered fun event member => outside event (List.mem_cons_of_mem _ member)
      rwa [List.append_assoc] at further

theorem Daemon.opened_calm {state : sys.State} : (TokenTable.forest (Daemon.opened sys state).tokens).cancelled = ∅ :=
  Set.eq_empty_iff_forall_notMem.mpr fun _ member => List.not_mem_nil member

abbrev defaultSite (cleaning : Cleaning sys) (vault : ProofVault A) : Site sys .concrete A where
  cleaning := cleaning
  shutdown := (0 : Nat)
  isLoopback _ := some true
  vault := vault

theorem Lifecycle.vaultRun {site : Site sys runtime A} {first : Lifecycle sys runtime}
    {past : List (Event MainOp.Answer)} {rest : Program MainOp MainOp.Answer (Except Anyhow Unit)}
    {daemon : Daemon sys runtime} {ok : sys.Config → sys.Label → Prop} {labels : List sys.Label} {vaults : sys.Config}
    (reaches : Lifecycle.Reaches site first ⟨past, rest, daemon⟩)
    (run : System.RunWhere ok daemon.vaults labels vaults) :
    Lifecycle.Reaches site first ⟨past, rest, { daemon with vaults }⟩ := by
  induction run with
  | refl => exact reaches
  | snoc _ _ step ih => exact ih.tail (.daemon (by trivial) (.vault step))

/-- The process starts with a purge that finds nothing, is told to stop, and its task
ends before it has swept. -/
theorem waits_by_default {cleaning : Cleaning sys} {state : sys.State} (vault : ProofVault A)
    {ok : sys.Config → sys.Label → Prop} {labels : List sys.Label} {vaults : sys.Config}
    (run : System.RunWhere ok (System.Config.start state) labels vaults) {thread : sys.Thread} {result : sys.Result}
    (found : vaults.threads 0 = some thread) (called : thread.call = cleaning.cleanup)
    (returned : thread.Returned result) (nothing : cleaning.removed result = .ok 0) :
    ∃ past, ∃ daemon : Daemon sys .concrete, ∃ next start,
      Lifecycle.Reaches (defaultSite cleaning vault) (.opened (fun _ name => name) .plain (.opened sys state))
        ⟨past, .step .taskStopped next, daemon⟩ ∧
      Leads (next ()) [⟨.log "Cleanup task stopped", ()⟩, ⟨.log "Shutdown complete", ()⟩] (.done (.ok ())) ∧
      daemon.tasks 0 = some ⟨(0 : Nat), (1 : Nat), 300000000000, .ended, start, start, []⟩ ∧
      daemon.vaults = vaults := by
  obtain ⟨purged, front, spawned, logged', started, serves, cancelled, back, stopped, waits, final⟩ :=
    main_leads fun _ name => name
  have start : Lifecycle.Reaches (defaultSite cleaning vault) _
    (.opened (fun _ name => name) .plain (.opened sys state)) := .refl
  have opens := Lifecycle.performs start front (by simp [beforePurge, MainOp.OfMachine])
  have before := Lifecycle.vaultRun opens run
  let swept : Daemon sys .concrete := { Daemon.opened sys state with vaults }
  have answered : MainAct (defaultSite cleaning vault) swept ⟨.cleanup, cleaning.removed result⟩ swept :=
    .cleanup found called returned
  rw [nothing] at answered
  have logged_ := Lifecycle.performs (before.tail (.main answered)) logged' (by simp [MainOp.OfMachine])
  have spawns := logged_.tail (.main (.spawnCleanupTask (.spawn 300000000000 rfl List.mem_cons_self)))
  rw [serves] at spawns
  have drained := Lifecycle.performs (spawns.tail (.main (.startServer rfl))) back
    (by simp [beforeCancel, MainOp.OfMachine])
  -- The task starts late, and finds its token cancelled.
  have cancels := drained.tail (.main (.cancel (.cancel List.mem_cons_self)))
  have starts := cancels.tail (.daemon (by trivial) (@Daemon.Step.poll _ _ _ _ _ _ 0 _ 0 _ _ _ rfl rfl))
  have ends := starts.tail (.daemon (by trivial) (@Daemon.Step.poll _ _ _ _ _ _ 0 _ 0 _ _ _ rfl rfl))
  rw [waits] at ends
  exact ⟨_, _, stopped, 0, ends, final, rfl, rfl⟩

section Shutdown

variable {site : Site sys runtime A} {first : Daemon sys runtime} {process : Lifecycle sys runtime} {stage : Stage}
  {forest : runtime.tokens.State → TokenForest runtime.tokens.Token} {tolerance : Nat}

/-- The token is cancelled from the stage on at which `main` cancels it. -/
theorem Lifecycle.Kept.cancelled_iff (kept : Lifecycle.Kept site first process stage)
    (documented : runtime.tokens.Documented forest) (fresh : ∀ id, first.tasks id = none)
    (hosts : ∀ token ∈ first.hosts, (forest first.tokens).There token)
    (calm : (forest first.tokens).cancelled = ∅) :
    runtime.tokens.isCancelled process.daemon.tokens site.shutdown = true ↔ stage.Stopping := by
  obtain ⟨labels, run, sparing⟩ := kept.run
  obtain ⟨owned, asked⟩ := Daemon.asked_of_run documented fresh hosts run
  rw [Daemon.host_cancelled_iff documented owned asked kept.held, calm, ← sparing.cancels]
  constructor
  · intro holds
    obtain ⟨ancestor, _, impossible | member⟩ := holds
    · exact impossible.elim
    · rwa [sparing.only ancestor member] at member
  · intro member
    exact ⟨site.shutdown, owned.hosts _ kept.held, .inr member⟩

/-- The token is cancelled only after the server has stopped, so the periodic cleanup
goes on as long as the server. When `main` returns, every task has ended and all its
sweeps are over; when it fails, it has cancelled nothing. A server without TLS is on a
loopback address, or was asked for. -/
theorem main_orderly {withFileName : String → String → String} {cli : Cli} (skips : Skips tolerance runtime.next)
    (documented : runtime.tokens.Documented forest) (fresh : ∀ id, first.tasks id = none)
    (hosts : ∀ token ∈ first.hosts, (forest first.tokens).There token)
    (calm : (forest first.tokens).cancelled = ∅) (held : site.shutdown ∈ first.hosts)
    (reaches : Lifecycle.Reaches site (.opened withFileName cli first) process) :
    (runtime.tokens.isCancelled process.daemon.tokens site.shutdown = true →
      ⟨.serverStopped, ()⟩ ∈ process.past) ∧
    (process.rest = .done (.ok ()) →
      runtime.tokens.isCancelled process.daemon.tokens site.shutdown = true ∧
      ∀ id task, process.daemon.tasks id = some task → task.phase = .ended ∧
        ∀ sweep ∈ task.begun, ∃ thread, process.daemon.vaults.threads sweep.tid = some thread ∧
          thread.call = site.cleaning.cleanup ∧ site.cleaning.Over thread) ∧
    (∀ error, process.rest = .done (.error error) →
      runtime.tokens.isCancelled process.daemon.tokens site.shutdown = false) ∧
    ∀ bindAddr authToken insecureNoTls maxProofSizeBytes,
      ⟨.startServer bindAddr authToken none insecureNoTls maxProofSizeBytes, .ok ()⟩ ∈ process.past →
        insecureNoTls = true ∨ site.isLoopback bindAddr = some true := by
  obtain ⟨stage, kept⟩ := Lifecycle.kept_of_reaches fresh held reaches
  have cancelled := kept.cancelled_iff documented fresh hosts calm
  refine ⟨fun stopping => kept.drained (drained_of_stopping (cancelled.mp stopping)), ?_, ?_, kept.served⟩
  · intro returned
    have finished := kept.obeys
    rw [returned] at finished
    have finished : stage.Finished := finished.result
    refine ⟨cancelled.mpr (stopping_of_finished finished), ?_⟩
    intro id task found
    have ended := kept.tasks_ended finished id task found
    obtain ⟨labels, run, _⟩ := kept.run
    exact ⟨ended, (Daemon.tasks_kept skips fresh run id task found).over_of_ended ended⟩
  · intro error failed
    have early := kept.obeys
    rw [failed] at early
    exact Bool.eq_false_iff.mpr fun stopping => early.result (cancelled.mp stopping)

/-- The process starts, is told to stop, and has waited for its task. -/
theorem main_orderly_default :
    ∃ last : Lifecycle (vaultSystem .keyed) .concrete, ∃ task, last.rest = .done (.ok ()) ∧
      last.daemon.tasks 0 = some task ∧ task.interval = 300000000000 ∧ task.phase = .ended ∧
      Runtime.concrete.tokens.isCancelled last.daemon.tokens (0 : Nat) = true ∧
      ⟨.serverStopped, ()⟩ ∈ last.past := by
  have acted : VaultAct (.initial .epoch) ⟨.storage .deleteExpired, .ok 0⟩ (.initial .epoch) :=
    .perform .deleteExpired (List.mem_singleton_self _)
  obtain ⟨next, running, ends⟩ : ∃ next,
      (Daemon.invoke (vaultStart .keyed .epoch) 0 (vaultCleaning .keyed).cleanup).threads 0 =
        some ⟨.cleanup, [], .step (.storage .deleteExpired) next⟩ ∧
      next (.ok 0) = .done (.ok (.removed 0)) := ⟨_, rfl, rfl⟩
  have purges : System.Run (vaultStart .keyed .epoch) _ _ :=
    .snoc (.snoc (.refl _) trivial (.invoke rfl)) trivial (.act running acted)
  obtain ⟨_, daemon, _, _, reaches, final, found, _⟩ :=
    @waits_by_default _ _ _ _ _ (vaultCleaning .keyed) _ (StandardVault.vault atomicBackend .keyed) _ _ _ purges _ _
      rfl rfl ends rfl
  have returned := Lifecycle.performs (reaches.tail (.main (.taskStopped found rfl))) final
    (by simp [MainOp.OfMachine])
  obtain ⟨after, done_, _⟩ := main_orderly skipMissed_skips Cancellation.concrete_documented (fun _ => rfl)
    Daemon.opened_hosts Daemon.opened_calm List.mem_cons_self returned
  obtain ⟨stopped, tasks⟩ := done_ rfl
  exact ⟨_, _, rfl, found, rfl, (tasks 0 _ found).1, stopped, after stopped⟩

/-- When the task has ended, `main` has only to say so. -/
theorem Lifecycle.finishes {daemon : Daemon sys runtime}
    (rest : Program MainOp MainOp.Answer (Except Anyhow Unit))
    (obeys : rest.Obeys due after Concludes .ended) (past : List (Event MainOp.Answer)) :
    ∃ past', Lifecycle.Reaches site ⟨past, rest, daemon⟩ ⟨past', .done (.ok ()), daemon⟩ := by
  induction rest generalizing past with
  | done result =>
      cases result with
      | ok _ => exact ⟨past, .refl⟩
      | error error => exact absurd trivial obeys.result
  | step op next ih =>
      have here := obeys.head
      cases op with
      | log line =>
          obtain ⟨past', reaches⟩ := ih () (obeys.tail ()) (past ++ [⟨.log line, ()⟩])
          exact ⟨past', .head (.main (.machine () trivial)) reaches⟩
      | _ => exact here.elim

end Shutdown

section File

variable {serde : Serde} {aead : Aead} {store : LocalFileStore} {shutdown : runtime.tokens.Token}
  {isLoopback : String → Option Bool} {state : HostState} {tolerance : Nat}
  {first daemon : Daemon (fileVaults serde aead).low runtime} {past : List (Event MainOp.Answer)}
  {next : Unit → Program MainOp MainOp.Answer (Except Anyhow Unit)}

/-- A process with a vault in a `LocalFileStore`. -/
abbrev fileSite (serde : Serde) (aead : Aead) (store : LocalFileStore) (shutdown : runtime.tokens.Token)
    (isLoopback : String → Option Bool) : Site (fileVaults serde aead).low runtime FileOp.Answer where
  cleaning := fileCleaning serde aead store
  shutdown := shutdown
  isLoopback := isLoopback
  vault := StandardVault.vault (store.backend serde) aead

/-- `main` does not wait for its task for ever: when neither the task nor a call of the
vault can go on, `main` does, and returns. -/
theorem main_returns {withFileName : String → String → String} {cli : Cli} (skips : Skips tolerance runtime.next)
    (atRest : state.AtRest) (start : first.vaults = System.Config.start state) (fresh : ∀ id, first.tasks id = none)
    (held : shutdown ∈ first.hosts)
    (reaches : Lifecycle.Reaches (fileSite serde aead store shutdown isLoopback) (.opened withFileName cli first)
      ⟨past, .step .taskStopped next, daemon⟩)
    (unused : ∃ recordId, recordId ∉ daemon.vaults.shared.drawn) (stuck : ∀ tid, ¬ Proceeds daemon.vaults tid)
    (alive : ∀ id task, daemon.tasks id = some task → ∀ sweep ∈ task.begun, sweep.tid ∉ daemon.vaults.shared.stopped)
    (waits : ∀ id task, daemon.tasks id = some task →
      ∀ tid, daemon.poll (fileCleaning serde aead store) tid task = none) :
    ∃ past', Lifecycle.Reaches (fileSite serde aead store shutdown isLoopback) ⟨past, .step .taskStopped next, daemon⟩
      ⟨past', .done (.ok ()), daemon⟩ := by
  obtain ⟨stage, kept⟩ := Lifecycle.kept_of_reaches fresh held reaches
  have here : stage.due .taskStopped := kept.obeys.head
  obtain ⟨task, found⟩ := kept.tasked (tasked_of_taskStopped here)
  obtain ⟨labels, run, _⟩ := kept.run
  have ended :=
    ended_of_stuck skips atRest start fresh run found unused stuck (alive 0 task found) (waits 0 task found)
  have obeys := kept.obeys.tail ()
  rw [after_taskStopped here] at obeys
  obtain ⟨past', finishes⟩ := Lifecycle.finishes (next ()) obeys (past ++ [⟨.taskStopped, ()⟩])
  exact ⟨past', .head (.main (.taskStopped found ended)) finishes⟩

/-- The purge is over when `main` waits for a task that has not swept. -/
theorem main_returns_default :
    ∃ past, ∃ daemon : Daemon (fileVaults .concrete .keyed).low .concrete, ∃ next past',
      Lifecycle.Reaches (fileSite .concrete .keyed ⟨true, 0⟩ (0 : Nat) fun _ => some true)
        ⟨past, .step .taskStopped next, daemon⟩ ⟨past', .done (.ok ()), daemon⟩ := by
  let machine : Machine := ⟨.replicate 32 1, .replicate 12 0, .replicate 16 0, fun _ => none⟩
  obtain ⟨_, leads, answers, _⟩ := @cleanup_answers .keyed machine (.initial .epoch) rfl
  let bytes := Json.toBytes (Json.print [])
  have empty : DiskState.fromSlice .concrete bytes = .ok ∅ := DiskState.fromSlice_concrete_empty
  have resting : Resting .concrete (.opened bytes .epoch) (.initial .epoch) := ⟨agrees_opened empty, rfl, rfl⟩
  let opened : System.Config (fileVaults .concrete .keyed).low := System.Config.start (.opened bytes .epoch)
  have start : System.RunWhere (Considered .concrete .keyed fun _ _ => True) opened [] opened := .refl opened
  obtain ⟨_, shared, events, swept, rests⟩ := file_call_rests start Serde.concrete_readsBack resting machine rfl
    0 0 .cleanup rfl leads answers
  obtain ⟨past, daemon, next, _, reaches, _, found, vaults⟩ :=
    @waits_by_default _ _ _ _ _ (fileCleaning .concrete .keyed ⟨true, 0⟩) _
      (StandardVault.vault (LocalFileStore.backend .concrete ⟨true, 0⟩) .keyed) _ _ _ swept
      ⟨⟨⟨true, 0⟩, .cleanup⟩, events, .done (.ok (.removed 0))⟩ (.ok (.removed 0)) rfl rfl rfl rfl
  have unused : ∃ recordId, recordId ∉ daemon.vaults.shared.drawn := by
    rw [vaults]
    simp only
    rw [← rests.drawn]
    exact ⟨.replicate 16 0, List.not_mem_nil⟩
  have stuck : ∀ tid, ¬ Proceeds daemon.vaults tid := by
    rw [vaults]
    intro tid proceeds
    obtain ⟨_, op, ⟨thread, next, present, here⟩, _⟩ := proceeds
    change Function.update _ 0 _ tid = _ at present
    by_cases same : tid = 0
    · rw [same, Function.update_self] at present
      cases present
      contradiction
    · rw [Function.update_of_ne same] at present
      cases present
  obtain ⟨_, kept⟩ := Lifecycle.kept_of_reaches (fun _ => rfl) List.mem_cons_self reaches
  have one {id : Nat} {task : CleanupTask Nat} (here : daemon.tasks id = some task) :
      task.begun = [] ∧ task.phase = .ended := by
    rw [kept.only id task here, found] at here
    cases here
    exact ⟨rfl, rfl⟩
  obtain ⟨past', returns⟩ := main_returns skipMissed_skips (atRest_opened bytes .epoch) rfl (fun _ => rfl)
    List.mem_cons_self reaches unused stuck
    (fun id task here => by simp [(one here).1]) (fun id task here tid => by simp [Daemon.poll, (one here).2])
  exact ⟨past, daemon, next, past', returns⟩

end File

end TariVault
