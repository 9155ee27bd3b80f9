import TariVault.Vault.Turns
import TariVault.Vault.OverSqlite

namespace TariVault

open Program TariVault.System SqlM

/-! # A vault call by itself over the database

Nothing fails and nobody interferes. As long as the rows it inserts can be read back, the
call answers as it does over single operations.
-/

variable {chrono : Chrono} {connection : Nat → Nat} {aead : Aead} {machine : Machine} {tid : Nat}
  {state : DatabaseState} {vault : VaultState} {may : DateTime → DateTime → Prop}

/-- No answer to an insertion that could not be read back. -/
def DatabaseState.alone (chrono : Chrono) (connection : Nat → Nat) (machine : Machine) (tid : Nat)
    (state : DatabaseState) :
    (op : HostOp SqlOp) → Option (HostOp.Answer SqlOp.Answer op × DatabaseState)
  | .generateKey => some (machine.key, state)
  | .generateNonce => some (machine.nonce, state)
  | .newV4 =>
      if state.drawn.contains machine.recordId then none
      else some (machine.recordId, { state with drawn := machine.recordId :: state.drawn })
  | .storage (.insertOrReplace recordId row) =>
      match SqliteStore.recordOf chrono row with
      | .ok _ => state.respond (connection tid) tid (.storage (.insertOrReplace recordId row))
      | .error _ => none
  | op => state.respond (connection tid) tid op

/-- Nothing is in flight, and nothing was killed. -/
structure Settled (chrono : Chrono) (state : DatabaseState) (vault : VaultState) : Prop extends
    DatabaseAgrees chrono state vault where
  free : ∀ connection, state.mutexes connection = none
  running : state.stopped = []

/-- A statement between taking the mutex and releasing it. -/
theorem withConnection_alone {α : Type} {body : SqlM α} {result : Except StorageError α} {table : Table}
    (free : state.mutexes (connection tid) = none)
    (ran : ∀ mutexes, body.run.exec (DatabaseState.alone chrono connection machine tid) { state with mutexes } =
      (some result, { state with mutexes, table })) :
    (withConnection body).exec (DatabaseState.alone chrono connection machine tid) state =
      (some result, { state with table }) := by
  have locked : state.alone chrono connection machine tid (.storage .lock) =
      some (.ok (), { state with mutexes := Function.update state.mutexes (connection tid) (some tid) }) := by
    simp only [DatabaseState.alone, DatabaseState.respond, free]
  have released : Function.update (Function.update state.mutexes (connection tid) (some tid)) (connection tid) none =
      state.mutexes := by
    rw [Function.update_idem, ← free, Function.update_eq_self]
  rw [withConnection_eq, exec_step locked]
  simp only
  rw [exec_bind_of_eq (congrArg Prod.fst (ran _)), ran]
  simp only [exec, DatabaseState.alone, DatabaseState.respond, released]

theorem Settled.withTable {table : Table} {contents : Contents} (settled : Settled chrono state vault)
    (tabulates : TabulatesPlain chrono table contents) :
    Settled chrono { state with table } { vault with records := contents } where
  tabulates := tabulates
  clock := settled.clock
  readings := settled.readings
  drawn := settled.drawn
  shown := settled.shown
  fourDigits := settled.fourDigits
  free := settled.free
  running := settled.running

/-- A storage operation answers on the rows what it answers on the records. -/
theorem perform_alone (documented : chrono.Documented) (settled : Settled chrono state vault) (op : BackendOp)
    (plain : ∀ recordId record, op = .insert recordId record →
      record.storedAt.FourDigits ∧ ∀ expiry, record.expiresAt = some expiry → expiry.FourDigits) :
    ∃ table, ((SqliteStore.backend chrono).perform op).exec (DatabaseState.alone chrono connection machine tid) state =
        (some (vault.records.apply vault.clock op).1, { state with table }) ∧
      TabulatesPlain chrono table (vault.records.apply vault.clock op).2 := by
  have free := settled.free (connection tid)
  have fourDigits := settled.fourDigits _ settled.shown
  rw [settled.clock]
  have simulated (keeps : ∀ recordId record, op ≠ .insert recordId record) :=
    settled.tabulates.step documented fourDigits keeps
  cases op with
  | insert recordId record =>
      obtain ⟨storedAt, expiresAt⟩ := plain recordId record rfl
      have readable := recordOf_rowOf documented ⟨storedAt, fun expiry expires => (expiresAt expiry expires).1⟩
        fun expiry expires => (expiresAt expiry expires).2
      refine ⟨_, withConnection_alone free fun mutexes => ?_,
        settled.tabulates.insert recordId storedAt expiresAt⟩
      have answered : DatabaseState.alone chrono connection machine tid { state with mutexes }
          (.storage (.insertOrReplace recordId (SqliteStore.rowOf chrono record))) =
          some (.ok 1, { state with
            mutexes
            table := state.table.insert recordId (SqliteStore.rowOf chrono record) }) := by
        simp only [DatabaseState.alone, readable, DatabaseState.respond, Table.apply]
      exact exec_step answered
  | fetch recordId =>
      obtain ⟨next, stepped, tabulates⟩ := simulated (by simp)
      rw [SqliteStore.step_fetch] at stepped
      simp only [Option.some.injEq, Prod.mk.injEq, Sigma.mk.injEq, heq_eq_eq, true_and] at stepped
      obtain ⟨same, rfl⟩ := stepped
      refine ⟨_, withConnection_alone free fun mutexes => ?_, tabulates⟩
      rw [← same]
      cases found : state.table[recordId]? with
      | none => simp [exec, Host.storage, DatabaseState.alone, DatabaseState.respond, Table.apply, found]
      | some row => simp [exec, Host.storage, DatabaseState.alone, DatabaseState.respond, Table.apply, found]
  | delete recordId =>
      obtain ⟨next, stepped, tabulates⟩ := simulated (by simp)
      rw [SqliteStore.step_delete] at stepped
      simp only [Option.some.injEq, Prod.mk.injEq, Sigma.mk.injEq, heq_eq_eq, true_and] at stepped
      obtain ⟨same, rfl⟩ := stepped
      refine ⟨_, withConnection_alone free fun mutexes => ?_, tabulates⟩
      rw [← same]
      have answer : decide (0 < if state.table.contains recordId then 1 else 0) = state.table.contains recordId := by
        cases state.table.contains recordId <;> rfl
      rw [← answer]
      rfl
  | deleteExpired =>
      obtain ⟨next, stepped, tabulates⟩ := simulated (by simp)
      rw [SqliteStore.step_deleteExpired] at stepped
      simp only [Option.some.injEq, Prod.mk.injEq, Sigma.mk.injEq, heq_eq_eq, true_and] at stepped
      obtain ⟨same, rfl⟩ := stepped
      refine ⟨_, ?_, tabulates⟩
      have read : state.alone chrono connection machine tid .now = some (state.clock, state) := rfl
      have whole : ((SqliteStore.backend chrono).perform .deleteExpired : Host SqlOp.Answer _) = .step .now fun now =>
          withConnection (execute (Host.storage (SqlOp.deleteRowsUpTo (chrono.toRfc3339 now)))) := rfl
      rw [whole, exec_step read]
      refine withConnection_alone free fun mutexes => ?_
      rw [← same]
      rfl

theorem over_alone (documented : chrono.Documented) (healthy : machine.fault = fun _ => none)
    (op : HostOp BackendOp) (answer : HostOp.Answer BackendOp.Answer op) (state : DatabaseState)
    (vault next : VaultState) (settled : Settled chrono state vault)
    (responded : vault.respond machine op = some (answer, next)) (plain : InsertsPlain ⟨op, answer⟩) :
    ∃ after, ((SqliteStore.backend chrono).lower op).exec (DatabaseState.alone chrono connection machine tid)
        state = (some answer, after) ∧ Settled chrono after next := by
  obtain ⟨agrees, free, running⟩ := settled
  cases op with
  | panic message => exact answer.elim
  | now =>
      cases responded
      exact ⟨state, by rw [agrees.clock]; rfl, agrees, free, running⟩
  | log line =>
      cases responded
      exact ⟨state, rfl, agrees, free, running⟩
  | generateKey =>
      cases responded
      exact ⟨state, rfl, agrees, free, running⟩
  | generateNonce =>
      cases responded
      exact ⟨state, rfl, agrees, free, running⟩
  | newV4 =>
      simp only [VaultState.respond] at responded
      split at responded
      · contradiction
      rename_i fresh
      cases responded
      rw [agrees.drawn] at fresh
      refine ⟨{ state with drawn := machine.recordId :: state.drawn }, ?_, ?_⟩
      · simp [StorageBackend.lower, Host.newV4, perform, exec, DatabaseState.alone, fresh]
      · exact ⟨⟨agrees.tabulates, agrees.clock, agrees.readings, congrArg _ agrees.drawn, agrees.shown,
          agrees.fourDigits⟩, free, running⟩
  | storage op =>
      simp only [VaultState.respond, healthy] at responded
      cases responded
      obtain ⟨table, ran, tabulates⟩ := @perform_alone chrono connection machine tid _ _ documented
        ⟨agrees, free, running⟩ op fun recordId record same => by
          subst same
          exact plain recordId record _ rfl
      exact ⟨_, ran, Settled.withTable ⟨agrees, free, running⟩ tabulates⟩

theorem DatabaseState.alone_act {state' : DatabaseState} {op : HostOp SqlOp} {answer : HostOp.Answer SqlOp.Answer op}
    (alive : tid ∉ state.stopped)
    (responded : state.alone chrono connection machine tid op = some (answer, state')) :
    DatabaseAct connection tid state ⟨op, answer⟩ state' ∧ state'.stopped = state.stopped ∧
      ∀ recordId row answer', (⟨op, answer⟩ : Event (HostOp.Answer SqlOp.Answer)) =
        ⟨.storage (.insertOrReplace recordId row), answer'⟩ →
          ∃ record, SqliteStore.recordOf chrono row = .ok record := by
  cases op with
  | panic message => exact answer.elim
  | generateKey =>
      cases responded
      exact ⟨.generateKey _ alive, rfl, by simp⟩
  | generateNonce =>
      cases responded
      exact ⟨.generateNonce _ alive, rfl, by simp⟩
  | newV4 =>
      simp only [alone] at responded
      split at responded
      · contradiction
      · rename_i drawn
        have fresh : machine.recordId ∉ state.drawn := fun member => drawn (List.contains_iff_mem.mpr member)
        cases responded
        exact ⟨.newV4 alive fresh, rfl, by simp⟩
  | now =>
      cases responded
      exact ⟨.respond alive rfl, rfl, by simp⟩
  | log line =>
      cases responded
      exact ⟨.respond alive rfl, rfl, by simp⟩
  | storage op =>
      cases op with
      | lock =>
          have same := responded
          simp only [alone, respond] at responded
          split at responded
          · cases responded
            exact ⟨.respond alive same, rfl, by simp⟩
          · contradiction
      | insertOrReplace recordId row =>
          simp only [alone] at responded
          split at responded
          · rename_i record readable
            have same := responded
            cases responded
            refine ⟨.respond alive same, rfl, fun recordId' row' answer' equal => ?_⟩
            cases equal
            exact ⟨record, readable⟩
          · contradiction
      | _ =>
          have same := responded
          cases responded
          exact ⟨.respond alive same, rfl, by simp⟩

theorem Settled.tick (settled : Settled chrono state vault) {now : DateTime} (fourDigits : now.FourDigits) :
    Settled chrono (state.drift (.tick now)) { vault with clock := now, readings := now :: vault.readings } where
  tabulates := settled.tabulates
  clock := rfl
  readings := congrArg _ settled.readings
  drawn := settled.drawn
  shown := List.mem_cons_self
  fourDigits := List.forall_mem_cons.mpr ⟨fourDigits, settled.fourDigits⟩
  free := settled.free
  running := settled.running

/-- The answers of a turn in which nothing fails are those of a run. -/
theorem DatabaseState.acts_of_answers {events : List (Event (HostOp.Answer SqlOp.Answer))} {state' : DatabaseState}
    (alive : tid ∉ state.stopped)
    (answers : Answers (DatabaseState.alone chrono connection machine tid) state events state') :
    @Acts _ _ (sqliteVaults chrono connection aead).low tid state events state' ∧
      ∀ event ∈ events, ∀ recordId row answer, event = ⟨.storage (.insertOrReplace recordId row), answer⟩ →
        ∃ record, SqliteStore.recordOf chrono row = .ok record := by
  induction answers with
  | nil => exact ⟨.nil, by simp⟩
  | cons answered _ ih =>
      obtain ⟨act, same, readable⟩ := DatabaseState.alone_act alive answered
      obtain ⟨later, readableLater⟩ := ih (by rw [same]; exact alive)
      exact ⟨.cons act later, List.forall_mem_cons.mpr ⟨readable, readableLater⟩⟩

/-- A turn of a call over the database, in which nothing fails. -/
theorem database_turn {config : Config (sqliteVaults chrono connection aead).low} {call : VaultCall}
    {past : List (Event (HostOp.Answer SqlOp.Answer))} {rest final : VaultProgram (Except VaultError Reply)}
    {events : List VaultEvent} {vault' : VaultState} (documented : chrono.Documented)
    (settled : Settled chrono config.shared vault) (healthy : machine.fault = fun _ => none)
    (found : config.threads tid = some ⟨call, past, rest.interpret (SqliteStore.backend chrono).lower⟩)
    (leads : Leads rest events final) (answers : Answers (VaultState.respond machine) vault events vault')
    (plain : ∀ event ∈ events, InsertsPlain event) :
    ∃ labels shared events', RunWhere (Readable chrono connection aead may) config labels
        ⟨shared, Function.update config.threads tid
          (some ⟨call, past ++ events', final.interpret (SqliteStore.backend chrono).lower⟩)⟩ ∧
      Settled chrono shared vault' := by
  obtain ⟨events', shared, leads', answers', settled'⟩ :=
    interpret_answers (@over_alone chrono connection machine tid documented healthy) leads answers plain settled
  obtain ⟨acts, readable⟩ := @DatabaseState.acts_of_answers _ _ aead _ _ _ _ _ (by simp [settled.running]) answers'
  refine ⟨_, shared, events', RunWhere.perform found leads' acts fun config _ _ event _ member => ?_, settled'⟩
  refine ⟨fun other recordId row answer same => ?_, by simp⟩
  injection same with _ same
  exact readable event member recordId row answer same

/-- Calls take their turns over the database, too. -/
theorem database_takesTurns (documented : chrono.Documented) :
    @TakesTurns aead _ _ (sqliteVaults chrono connection aead) may (fun _ => id) (Readable chrono connection aead may)
      (Settled chrono) where
  abstract _ _ := rfl
  invokes _ _ _ := ⟨by simp, by simp⟩
  turn settled healthy found leads answers plain :=
    database_turn documented settled healthy found leads answers plain
  tick := by
    intro config vault now settled moves fourDigits
    have readable : Readable chrono connection aead may config (.drift (.tick now)) := by
      refine ⟨by simp, fun other same => ?_⟩
      cases same
      exact ⟨fourDigits, settled.clock ▸ moves⟩
    exact ⟨_, _, .snoc (.refl config) readable (.drift rfl), settled.tick fourDigits⟩

end TariVault
