import TariVault.Program.Phases
import TariVault.Rpc.Transport

namespace TariVault

open Program

/-! # The process

It opens the storage and purges it, starts the periodic cleanup and the server, waits
for the signal, and stops them again.
-/

structure ServerConfig where
  bindAddress : String
  authToken : Option String
  tlsCertPath : Option String
  tlsKeyPath : Option String
  insecureNoTls : Bool
  maxProofSizeBytes : UInt64

inductive BackendKind where
  | file
  | sqlite

structure StorageConfig where
  vaultFile : String
  cleanupIntervalSecs : UInt64
  backend : BackendKind
  sqlitePath : Option String

structure LoggingConfig where
  level : String

structure VaultConfig where
  server : ServerConfig
  storage : StorageConfig
  logging : LoggingConfig

/-- `defaultVaultPath` is in the data directory of the platform. -/
def VaultConfig.default (defaultVaultPath : String) : VaultConfig where
  server := {
    bindAddress := "127.0.0.1:9000"
    authToken := none
    tlsCertPath := none
    tlsKeyPath := none
    insecureNoTls := false
    maxProofSizeBytes := 1048576 }
  storage := {
    vaultFile := defaultVaultPath
    cleanupIntervalSecs := 300
    backend := .file
    sqlitePath := none }
  logging := { level := "info" }

structure Cli where
  config : Option String
  vaultFile : Option String
  bind : Option String
  cleanupInterval : Option UInt64
  logLevel : Option String
  authToken : Option String
  sqlitePath : Option String
  tlsCert : Option String
  tlsKey : Option String
  insecureNoTls : Bool

/-- Flags of the command line come first. -/
def Cli.override (cli : Cli) (cfg : VaultConfig) : VaultConfig where
  server := {
    bindAddress := cli.bind.getD cfg.server.bindAddress
    authToken := cli.authToken <|> cfg.server.authToken
    tlsCertPath := cli.tlsCert <|> cfg.server.tlsCertPath
    tlsKeyPath := cli.tlsKey <|> cfg.server.tlsKeyPath
    insecureNoTls := cli.insecureNoTls || cfg.server.insecureNoTls
    maxProofSizeBytes := cfg.server.maxProofSizeBytes }
  storage := {
    vaultFile := cli.vaultFile.getD cfg.storage.vaultFile
    cleanupIntervalSecs := cli.cleanupInterval.getD cfg.storage.cleanupIntervalSecs
    backend := cfg.storage.backend
    sqlitePath := cli.sqlitePath <|> cfg.storage.sqlitePath }
  logging := { level := cli.logLevel.getD cfg.logging.level }

/-- An error under the contexts it was given, the outermost first. -/
abbrev Anyhow := List String

/-- What `main` asks for. The interval is in nanoseconds. -/
inductive MainOp where
  | loadConfig (configFile : Option String)
  | initLogging (level : String)
  | openFile (vaultPath : String)
  | openSqlite (dbPath : String)
  | cleanup
  | spawnCleanupTask (interval : Nat)
  | startServer (bindAddr : String) (authToken : Option String) (tls : Option TlsConfig) (insecureNoTls : Bool)
      (maxProofSizeBytes : UInt64)
  | ctrlC
  | stopServer
  | serverStopped
  | cancel
  | taskStopped
  | log (line : String)

abbrev MainOp.Answer : MainOp → Type
  | .loadConfig _ => Except Anyhow VaultConfig
  | .openFile _ => Except Anyhow Unit
  | .openSqlite _ => Except Anyhow Unit
  | .cleanup => Except VaultError Nat
  | .startServer .. => Except Anyhow Unit
  | .ctrlC => Except Anyhow Unit
  | .stopServer => Except Anyhow Unit
  | _ => Unit

abbrev MainM := ExceptT Anyhow (Program MainOp MainOp.Answer)

namespace Main

def ask (op : MainOp) : MainM op.Answer := ExceptT.lift (perform op)

def attempt {α : Type} (program : Program MainOp MainOp.Answer (Except Anyhow α)) : MainM α := ExceptT.mk program

def context {α : Type} (message : String) (program : Program MainOp MainOp.Answer (Except Anyhow α)) : MainM α :=
  attempt (Except.mapError (message :: ·) <$> program)

/-- `withFileName` is `Path::with_file_name`. -/
def openStorage (withFileName : String → String → String) (storage : StorageConfig) : MainM Unit := do
  let sqlitePath := storage.sqlitePath.getD (withFileName storage.vaultFile "vault.db")
  match storage.backend with
  | .file =>
      ask (.log ("Storage backend: file (" ++ storage.vaultFile ++ ")"))
      context "Failed to open vault storage file" (perform (MainOp.openFile storage.vaultFile))
  | .sqlite =>
      ask (.log ("Storage backend: sqlite (" ++ sqlitePath ++ ")"))
      context "Failed to open SQLite database" (perform (MainOp.openSqlite sqlitePath))

def purge : MainM Unit := do
  let purged ← context "Startup cleanup failed"
    (Except.mapError (fun error : VaultError => [error.toString]) <$> perform MainOp.cleanup)
  if 0 < purged then
    ask (.log ("Startup cleanup: removed " ++ toString purged ++ " expired proof(s)"))

/-- Whether there is a task. -/
def startCleanup (cleanupIntervalSecs : UInt64) : MainM Bool := do
  if 0 < cleanupIntervalSecs.toNat then
    ask (.log ("Background cleanup enabled (interval: " ++ toString cleanupIntervalSecs.toNat ++ "s)"))
    ask (.spawnCleanupTask (cleanupIntervalSecs.toNat * 1000000000))
    return true
  else
    ask (.log "Background cleanup disabled (cleanup_interval_secs = 0)")
    return false

/-- TLS is set up by both paths or none. -/
def tlsOf (server : ServerConfig) : Except Anyhow (Option TlsConfig) :=
  match server.tlsCertPath, server.tlsKeyPath with
  | some certPath, some keyPath => .ok (some { certPath, keyPath })
  | none, none => .ok none
  | _, _ => .error ["TLS requires both --tls-cert and --tls-key to be specified"]

def serve (server : ServerConfig) : MainM Unit := do
  let tls ← attempt (pure (tlsOf server))
  if server.insecureNoTls then
    ask (.log ("insecure_no_tls is enabled — plain HTTP on a non-loopback address. " ++
      "Ensure TLS is terminated by an external proxy."))
  context "Failed to start RPC server" (perform (MainOp.startServer server.bindAddress server.authToken tls
    server.insecureNoTls server.maxProofSizeBytes))

/-- The server first, then the cleanup task. -/
def shutDown (task : Bool) : MainM Unit := do
  context "Failed to listen for Ctrl-C" (perform MainOp.ctrlC)
  ask (.log "Shutdown signal received")
  attempt (perform MainOp.stopServer)
  ask .serverStopped
  ask (.log "RPC server stopped")
  ask .cancel
  if task then
    ask .taskStopped
    ask (.log "Cleanup task stopped")
  ask (.log "Shutdown complete")

def main (withFileName : String → String → String) (cli : Cli) : MainM Unit := do
  let loaded ← attempt (perform (MainOp.loadConfig cli.config))
  let cfg := cli.override loaded
  ask (.initLogging cfg.logging.level)
  ask (.log "Starting Tari Vault v0.1.0")
  openStorage withFileName cfg.storage
  purge
  let task ← startCleanup cfg.storage.cleanupIntervalSecs
  serve cfg.server
  shutDown task

/-- How far `main` is, and whether there is a cleanup task. -/
inductive Stage where
  | starting
  | opened
  | purged (task : Bool)
  | serving (task : Bool)
  | signalled (task : Bool)
  | draining (task : Bool)
  | drained (task : Bool)
  | cancelled (task : Bool)
  | ended

namespace Stage

def due : Stage → MainOp → Prop
  | _, .log _ => True
  | .starting, .loadConfig _ => True
  | .starting, .initLogging _ => True
  | .starting, .openFile _ => True
  | .starting, .openSqlite _ => True
  | .opened, .cleanup => True
  | .purged false, .spawnCleanupTask interval => 0 < interval
  | .purged _, .startServer .. => True
  | .serving _, .ctrlC => True
  | .signalled _, .stopServer => True
  | .draining _, .serverStopped => True
  | .drained _, .cancel => True
  | .cancelled true, .taskStopped => True
  | _, _ => False

def after : Stage → Event MainOp.Answer → Stage
  | .starting, ⟨.openFile _, .ok _⟩ => .opened
  | .starting, ⟨.openSqlite _, .ok _⟩ => .opened
  | .opened, ⟨.cleanup, .ok _⟩ => .purged false
  | .purged _, ⟨.spawnCleanupTask _, _⟩ => .purged true
  | .purged task, ⟨.startServer .., .ok _⟩ => .serving task
  | .serving task, ⟨.ctrlC, .ok _⟩ => .signalled task
  | .signalled task, ⟨.stopServer, .ok _⟩ => .draining task
  | .draining task, ⟨.serverStopped, _⟩ => .drained task
  | .drained task, ⟨.cancel, _⟩ => .cancelled task
  | .cancelled _, ⟨.taskStopped, _⟩ => .ended
  | stage, _ => stage

/-- The token is cancelled from then on. -/
def Stopping : Stage → Prop
  | .cancelled _ => True
  | .ended => True
  | _ => False

/-- Nothing is left to stop. -/
def Finished : Stage → Prop
  | .cancelled task => task = false
  | .ended => True
  | _ => False

/-- A failure ends `main` before it cancels anything. -/
def Concludes (result : Except Anyhow Unit) (stage : Stage) : Prop :=
  match result with
  | .ok _ => stage.Finished
  | .error _ => ¬ stage.Stopping

end Stage

open Stage

variable {stage : Stage} {α : Type}

abbrev Staged (program : MainM α) (stage : Stage) (reached : α → Stage) : Prop :=
  program.run.Obeys due after (Either (fun value stage => stage = reached value) fun _ stage => ¬ stage.Stopping) stage

namespace Staged

theorem bind {β : Type} {first : MainM α} {rest : α → MainM β} {reached : α → Stage} {final : β → Stage}
    (staged : Staged first stage reached) (later : ∀ value, Staged (rest value) (reached value) final) :
    Staged (first >>= rest) stage final := by
  refine Obeys.bind_ok _ _ staged (fun _ _ early => early) fun value stage same => ?_
  rw [same]
  exact later value

theorem thenEnds {first : MainM α} {rest : α → MainM Unit} {reached : α → Stage} (staged : Staged first stage reached)
    (later : ∀ value, (rest value).run.Obeys due after Concludes (reached value)) :
    (first >>= rest).run.Obeys due after Concludes stage := by
  refine Obeys.bind_ok _ _ staged (fun _ _ early => early) fun value stage same => ?_
  rw [same]
  exact later value

theorem pure (value : α) {reached : α → Stage} (same : reached value = stage) :
    Staged (Pure.pure value) stage reached :=
  .done same.symm

theorem ask {op : MainOp} (here : stage.due op) {reached : op.Answer → Stage}
    (answered : ∀ answer, stage.after ⟨op, answer⟩ = reached answer) : Staged (Main.ask op) stage reached :=
  .step here fun answer => .done (answered answer)

theorem log {line : String} : Staged (Main.ask (.log line)) stage fun _ => stage := by
  refine ask ?_ fun _ => ?_
  · cases stage <;> trivial
  · cases stage <;> rfl

/-- Before anything is cancelled, an operation may fail. -/
theorem attempt {op : MainOp} {convert : op.Answer → Except Anyhow α} {reached : Stage} (here : stage.due op)
    (answered : ∀ answer, Either (fun _ stage => stage = reached) (fun _ stage => ¬ stage.Stopping) (convert answer)
      (stage.after ⟨op, answer⟩)) : Staged (Main.attempt (convert <$> perform op)) stage fun _ => reached :=
  .step here fun answer => .done (answered answer)

end Staged

theorem openStorage_staged (withFileName : String → String → String) (storage : StorageConfig) :
    Staged (openStorage withFileName storage) .starting fun _ => .opened := by
  unfold openStorage
  cases storage.backend with
  | file =>
      have opens : Staged (context "Failed to open vault storage file" (perform (MainOp.openFile storage.vaultFile)))
          .starting fun _ => .opened := by
        refine .attempt trivial fun answer => ?_
        cases answer with
        | ok _ => rfl
        | error _ => exact id
      exact Staged.log.bind fun _ => opens
  | sqlite =>
      have opens : Staged (context "Failed to open SQLite database" (perform (MainOp.openSqlite
          (storage.sqlitePath.getD (withFileName storage.vaultFile "vault.db"))))) .starting fun _ => .opened := by
        refine .attempt trivial fun answer => ?_
        cases answer with
        | ok _ => rfl
        | error _ => exact id
      exact Staged.log.bind fun _ => opens

theorem purge_staged : Staged purge .opened fun _ => .purged false := by
  have sweeps : Staged (context "Startup cleanup failed"
      (Except.mapError (fun error : VaultError => [error.toString]) <$> perform MainOp.cleanup)) .opened
      fun _ => .purged false := by
    refine .step trivial fun answer => .done ?_
    cases answer with
    | ok _ => rfl
    | error _ => exact id
  refine sweeps.bind fun purged => ?_
  by_cases some_ : 0 < purged
  · rw [if_pos some_]
    exact Staged.log
  · rw [if_neg some_]
    exact .pure _ rfl

theorem startCleanup_staged (cleanupIntervalSecs : UInt64) :
    Staged (startCleanup cleanupIntervalSecs) (.purged false) .purged := by
  unfold startCleanup
  by_cases positive : 0 < cleanupIntervalSecs.toNat
  · rw [if_pos positive]
    refine Staged.log.bind fun _ => ?_
    have spawns : Staged (ask (.spawnCleanupTask (cleanupIntervalSecs.toNat * 1000000000))) (.purged false)
        fun _ => .purged true :=
      Staged.ask (Nat.mul_pos positive (by decide)) fun _ => rfl
    exact spawns.bind fun _ => .pure true rfl
  · rw [if_neg positive]
    exact Staged.log.bind fun _ => .pure false rfl

theorem serve_staged (server : ServerConfig) (task : Bool) :
    Staged (serve server) (.purged task) fun _ => .serving task := by
  have reads : Staged (attempt (pure (tlsOf server))) (.purged task) fun _ => .purged task := by
    cases tlsOf server with
    | ok tls => exact .done rfl
    | error error => exact .done id
  have starts (tls : Option TlsConfig) : Staged (context "Failed to start RPC server"
      (perform (MainOp.startServer server.bindAddress server.authToken tls server.insecureNoTls
        server.maxProofSizeBytes))) (.purged task) fun _ => .serving task := by
    refine Staged.attempt (by cases task <;> trivial) fun answer => ?_
    cases answer with
    | ok _ => rfl
    | error _ => exact id
  refine reads.bind fun tls => ?_
  by_cases insecure : server.insecureNoTls = true
  · rw [if_pos insecure]
    exact Staged.log.bind fun _ => starts tls
  · rw [if_neg insecure]
    exact starts tls

theorem shutDown_staged (task : Bool) :
    Staged (shutDown task) (.serving task) fun _ => if task then .ended else .cancelled false := by
  have waits : Staged (context "Failed to listen for Ctrl-C" (perform MainOp.ctrlC)) (.serving task)
      fun _ => .signalled task := by
    refine Staged.attempt trivial fun answer => ?_
    cases answer with
    | ok _ => rfl
    | error _ => exact id
  have stops : Staged (attempt (perform MainOp.stopServer)) (.signalled task) fun _ => .draining task := by
    refine .step trivial fun answer => .done ?_
    cases answer with
    | ok _ => rfl
    | error _ => exact id
  have drains : Staged (ask .serverStopped) (.draining task) fun _ => .drained task := .ask (by trivial) fun _ => rfl
  have cancels : Staged (ask .cancel) (.drained task) fun _ => .cancelled task := .ask (by trivial) fun _ => rfl
  refine waits.bind fun _ => Staged.log.bind fun _ => stops.bind fun _ => ?_
  refine drains.bind fun _ => Staged.log.bind fun _ => cancels.bind fun _ => ?_
  cases task with
  | false => exact Staged.log
  | true =>
      have ended : Staged (ask .taskStopped) (.cancelled true) fun _ => .ended := .ask (by trivial) fun _ => rfl
      exact ended.bind fun _ => Staged.log.bind fun _ => Staged.log

/-- Whatever it is answered, `main` does one thing after the other, stops the server
before it cancels the token, and waits for the task that it has. -/
theorem main_obeys (withFileName : String → String → String) (cli : Cli) :
    (main withFileName cli).run.Obeys due after Concludes .starting := by
  have loads : Staged (attempt (perform (MainOp.loadConfig cli.config))) .starting fun _ => .starting := by
    refine .step trivial fun answer => .done ?_
    cases answer with
    | ok _ => rfl
    | error _ => exact id
  have inits {level : String} : Staged (ask (.initLogging level)) .starting fun _ => .starting :=
    .ask (by trivial) fun _ => rfl
  refine loads.thenEnds fun loaded => inits.thenEnds fun _ => Staged.log.thenEnds fun _ => ?_
  refine (openStorage_staged withFileName _).thenEnds fun _ => purge_staged.thenEnds fun _ => ?_
  refine (startCleanup_staged _).thenEnds fun task => (serve_staged _ task).thenEnds fun _ => ?_
  refine (shutDown_staged task).weaken fun result stage ends => ?_
  cases result with
  | error _ => exact ends
  | ok _ =>
      rw [ends]
      cases task with
      | false => rfl
      | true => trivial

end Main

end TariVault
