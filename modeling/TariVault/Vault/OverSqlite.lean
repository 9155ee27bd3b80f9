import TariVault.Vault.BackendAgreement
import TariVault.Vault.Lowering
import TariVault.Vault.Mirrored

namespace TariVault

open Program TariVault.System SqlM Correspondence

/-! # Vault calls of many processes over one database

Each process has a connection of its own, under a mutex of its own. The calls interleave
between any two statements. A statement may fail, and then it changes nothing; a mutex
may be poisoned; a process may be killed.
-/

structure DatabaseState where
  table : Table
  /-- Who holds the mutex of each connection. -/
  mutexes : Nat → Option Nat
  clock : DateTime
  /-- Every value the clock has shown. -/
  readings : List DateTime
  drawn : List RecordId
  /-- The calls that were killed. -/
  stopped : List Nat

/-- The answer of a statement that fails, and of a poisoned mutex. -/
def SqlOp.failed (message : String) : (op : SqlOp) → Option op.Answer
  | .lock => some (.error message)
  | .unlock => none
  | .insertOrReplace _ _ => some (.error message)
  | .selectRow _ => some (.error (.other message))
  | .deleteRow _ => some (.error message)
  | .deleteRowsUpTo _ => some (.error message)

/-- What call `tid` gets on a connection when nothing fails; `none` while it has to wait. -/
def DatabaseState.respond (connection tid : Nat) (state : DatabaseState) :
    (op : HostOp SqlOp) → Option (HostOp.Answer SqlOp.Answer op × DatabaseState)
  | .now => some (state.clock, state)
  | .log _ => some ((), state)
  | .storage .lock =>
      match state.mutexes connection with
      | none => some (.ok (), { state with mutexes := Function.update state.mutexes connection (some tid) })
      | some _ => none
  | .storage .unlock => some ((), { state with mutexes := Function.update state.mutexes connection none })
  | .storage op => some ((state.table.apply op).1, { state with table := (state.table.apply op).2 })
  | _ => none

/-- `connection` says which connection a call is served on. -/
inductive DatabaseAct (connection : Nat → Nat) (tid : Nat) :
    DatabaseState → Event (HostOp.Answer SqlOp.Answer) → DatabaseState → Prop where
  | respond {state op answer state'} (alive : tid ∉ state.stopped)
      (performed : state.respond (connection tid) tid op = some (answer, state')) :
      DatabaseAct connection tid state ⟨op, answer⟩ state'
  | fail {state : DatabaseState} {op message answer} (alive : tid ∉ state.stopped)
      (fails : op.failed message = some answer) : DatabaseAct connection tid state ⟨.storage op, answer⟩ state
  | generateKey {state : DatabaseState} (key : EncryptionKey) (alive : tid ∉ state.stopped) :
      DatabaseAct connection tid state ⟨.generateKey, key⟩ state
  | generateNonce {state : DatabaseState} (nonce : Nonce) (alive : tid ∉ state.stopped) :
      DatabaseAct connection tid state ⟨.generateNonce, nonce⟩ state
  | newV4 {state : DatabaseState} {recordId : RecordId} (alive : tid ∉ state.stopped)
      (fresh : recordId ∉ state.drawn) :
      DatabaseAct connection tid state ⟨.newV4, recordId⟩ { state with drawn := recordId :: state.drawn }

inductive DatabaseEnv where
  | tick (now : DateTime)
  | kill (victims : List Nat)

def DatabaseState.drift (state : DatabaseState) : DatabaseEnv → DatabaseState
  | .tick now => { state with clock := now, readings := now :: state.readings }
  | .kill victims =>
      { state with
        mutexes := fun connection => (state.mutexes connection).filter (· ∉ victims)
        stopped := victims ++ state.stopped }

/-- Vault calls over statements, and over single storage operations. -/
abbrev sqliteVaults (chrono : Chrono) (connection : Nat → Nat) (aead : Aead) :
    Realisation (vaultSystem aead) (HostOp SqlOp) (HostOp.Answer SqlOp.Answer) where
  Call := VaultCall
  State := DatabaseState
  Env := DatabaseEnv
  abstract call := call
  lower _ := (SqliteStore.backend chrono).lower
  code call := call.program (SqliteStore.backend chrono) aead
  code_eq call := call.program_eq (SqliteStore.backend chrono) aead
  act := DatabaseAct connection
  drift state env state' := state' = state.drift env

variable {chrono : Chrono} {connection : Nat → Nat} {aead : Aead} {may : DateTime → DateTime → Prop}
  {timely : Nat → DateTime → Prop} {tid : Nat}

/-- The rows are those of the records, and all their years have four digits. -/
structure TabulatesPlain (chrono : Chrono) (table : Table) (contents : Contents) : Prop extends
    Tabulates chrono table contents where
  plain : ∀ (recordId : RecordId) (record : StoredRecord) (expiry : DateTime),
    contents[recordId]? = some record → record.expiresAt = some expiry → expiry.year ≤ 9999

theorem TabulatesPlain.empty : TabulatesPlain chrono ∅ ∅ where
  represents := .empty
  years := by simp
  plain := by simp

section Plain

variable {table : Table} {contents : Contents} {record other : StoredRecord} {now : DateTime}

theorem parseDatetime_inv (documented : chrono.Documented) {time parsed : DateTime}
    (read : SqliteStore.parseDatetime chrono (chrono.toRfc3339 time) = .ok parsed) : time.FourDigits := by
  by_contra signed
  obtain ⟨message, refused⟩ := documented.refuses time signed
  simp [SqliteStore.parseDatetime, refused] at read

/-- A row that can be read back has years of four digits. -/
theorem plain_of_readable (documented : chrono.Documented)
    (read : SqliteStore.recordOf chrono (SqliteStore.rowOf chrono record) = .ok other) :
    record.storedAt.FourDigits ∧ ∀ expiry, record.expiresAt = some expiry → expiry.FourDigits := by
  obtain ⟨encrypted, storedAt, expiresAt⟩ := record
  cases stored : SqliteStore.parseDatetime chrono (chrono.toRfc3339 storedAt) with
  | error error => simp [SqliteStore.recordOf, SqliteStore.rowOf, stored, bind, Except.bind] at read
  | ok time =>
      refine ⟨parseDatetime_inv documented stored, fun expiry expires => ?_⟩
      cases expires
      cases expired : SqliteStore.parseDatetime chrono (chrono.toRfc3339 expiry) with
      | error error =>
          simp [SqliteStore.recordOf, SqliteStore.rowOf, stored, expired, bind, Except.bind, Functor.map,
            Except.map] at read
      | ok time => exact parseDatetime_inv documented expired

theorem TabulatesPlain.insert (tabulates : TabulatesPlain chrono table contents) (recordId : RecordId)
    (storedAt : record.storedAt.FourDigits)
    (expiresAt : ∀ expiry, record.expiresAt = some expiry → expiry.FourDigits) :
    TabulatesPlain chrono (table.insert recordId (SqliteStore.rowOf chrono record))
      (contents.insert recordId record) where
  represents := tabulates.represents.insert Function.injective_id recordId record
  years := by
    intro target found stored
    rcases @Contents.apply_brings _ _ _ .epoch (.insert recordId record) stored with old | inserts
    · exact tabulates.years target found old
    · cases inserts
      exact ⟨storedAt, fun expiry expires => (expiresAt expiry expires).1⟩
  plain := by
    intro target found expiry stored expires
    rcases @Contents.apply_brings _ _ _ .epoch (.insert recordId record) stored with old | inserts
    · exact tabulates.plain target found expiry old expires
    · cases inserts
      exact (expiresAt expiry expires).2

/-- An operation that inserts nothing answers on the rows what it answers on the
records. -/
theorem TabulatesPlain.step (documented : chrono.Documented) (tabulates : TabulatesPlain chrono table contents)
    {op : BackendOp} (fourDigits : now.FourDigits) (keeps : ∀ recordId record, op ≠ .insert recordId record) :
    ∃ next, SqliteStore.step chrono table ⟨now, op⟩ = some (⟨op, (contents.apply now op).1⟩, next) ∧
      TabulatesPlain chrono next (contents.apply now op).2 := by
  have comparable : Comparable contents ⟨now, op⟩ := by
    cases op with
    | fetch recordId => exact fun record expiry => tabulates.plain recordId record expiry
    | deleteExpired =>
        intro recordId record expiry stored expires
        have years := (tabulates.years recordId record stored).expiresAt expiry expires
        exact Rfc3339.yearsInOrder_of_plain ⟨years, tabulates.plain recordId record expiry stored expires⟩ fourDigits
    | _ => trivial
  have built : InsertsBuilt ⟨now, op⟩ := fun recordId record same => absurd same (keeps recordId record)
  obtain ⟨answer, next, next', stepped, same, tabulates'⟩ :=
    SqliteStore.step_agrees documented tabulates.toTabulates comparable built
  cases same
  refine ⟨next, stepped, tabulates', fun recordId record expiry stored expires => ?_⟩
  rcases Contents.apply_brings stored with old | inserts
  · exact tabulates.plain recordId record expiry old expires
  · exact absurd inserts (keeps recordId record)

end Plain

/-- The rows are those of the records, and the rest is the same. -/
structure DatabaseAgrees (chrono : Chrono) (state : DatabaseState) (vault : VaultState) : Prop where
  tabulates : TabulatesPlain chrono state.table vault.records
  clock : vault.clock = state.clock
  readings : vault.readings = state.readings
  drawn : vault.drawn = state.drawn
  shown : state.clock ∈ state.readings
  fourDigits : ∀ now ∈ state.readings, now.FourDigits

/-- No row is inserted that could not be read back, and the clock stays in the domain of
RFC 3339. A call has nothing to expect of the others: each statement is a transaction. -/
abbrev overSqlite (chrono : Chrono) (connection : Nat → Nat) (aead : Aead) (may : DateTime → DateTime → Prop)
    (timely : Nat → DateTime → Prop) : Correspondence (sqliteVaults chrono connection aead) where
  agrees := DatabaseAgrees chrono
  others _ before after := before.readings ⊆ after.readings
  idle _ _ := True
  permits tid event := (∀ recordId row answer, event = ⟨.storage (.insertOrReplace recordId row), answer⟩ →
      ∃ record, SqliteStore.recordOf chrono row = .ok record) ∧
    ∀ now, event = ⟨.now, now⟩ → timely tid now
  permitsDrift state env := ∀ now, env = .tick now → now.FourDigits ∧ may state.clock now
  landing tid := TimelyAct (timely tid)
  landing_act := @TimelyAct.acts timely
  others_refl _ _ := List.Subset.refl _
  others_trans := List.Subset.trans
  idle_others _ _ := trivial

section Operations

variable {α : Type} {op : BackendOp} {state : DatabaseState} {landed : Option op.Answer}

/-- The operation has happened, with this answer. -/
abbrev Answered {ρ : Type} (reply : ρ → op.Answer) : ρ → Option op.Answer → DatabaseState → Prop :=
  fun result landed _ => landed = some (reply result)

variable {ρ : Type} {reply : ρ → op.Answer}

/-- A statement is where the operation lands, whether it is executed or fails. -/
theorem lands_statement {statement : SqlOp} {next : statement.Answer → Host SqlOp.Answer ρ}
    (notLock : statement ≠ .lock) (notUnlock : statement ≠ .unlock)
    (happens : ∀ (before : DatabaseState) vault, state.readings ⊆ before.readings → DatabaseAgrees chrono before vault →
      (overSqlite chrono connection aead may timely).permits tid
        ⟨.storage statement, (before.table.apply statement).1⟩ →
      ∃ captured ∈ before.readings, (op = .deleteExpired → timely tid captured) ∧
        TabulatesPlain chrono (before.table.apply statement).2 (vault.records.apply captured op).2 ∧
        ∃ result, next (before.table.apply statement).1 = .done result ∧
          reply result = (vault.records.apply captured op).1)
    (fails : ∀ message answer, statement.failed message = some answer →
      ∃ error result, next answer = .done result ∧ reply result = op.failure error) :
    (overSqlite chrono connection aead may timely).Lands tid (.storage op) (Answered reply)
      (.step (.storage statement) next) none state := by
  intro before moved vault answer after agrees permitted performed
  cases performed with
  | respond alive responded =>
      have executed : before.respond (connection tid) tid (.storage statement) =
          some ((before.table.apply statement).1, { before with table := (before.table.apply statement).2 }) := by
        cases statement with
        | lock => contradiction
        | unlock => contradiction
        | _ => rfl
      rw [executed] at responded
      cases responded
      obtain ⟨captured, shown, onTime, tabulates, result, returns, same⟩ := happens before vault moved agrees permitted
      rw [← agrees.readings] at shown
      refine ⟨fun _ _ => List.Subset.refl _, .inr ⟨rfl, _, _, .perform op shown onTime, ?_, ?_⟩⟩
      · exact ⟨tabulates, agrees.clock, agrees.readings, agrees.drawn, agrees.shown, agrees.fourDigits⟩
      · rw [returns]
        exact fun now _ => congrArg some same.symm
  | fail alive failed =>
      obtain ⟨error, result, returns, same⟩ := fails _ _ failed
      refine ⟨fun _ _ => List.Subset.refl _, .inr ⟨rfl, _, vault, .fail op error, agrees, ?_⟩⟩
      rw [returns]
      exact fun now _ => congrArg some same.symm

theorem withConnection_eq (body : SqlM α) : withConnection body = .step (.storage .lock) fun locked =>
    match locked with
    | .error message => .done (.error (.io ("mutex poisoned: " ++ message)))
    | .ok _ => body.run >>= fun result => .step (.storage .unlock) fun _ => .done result := by
  refine congrArg (Program.step _) (funext fun locked => ?_)
  cases locked <;> rfl

/-- The mutex of the connection is taken before and released after, or the operation
fails. -/
theorem lands_withConnection {body : SqlM α} {reply : Except StorageError α → op.Answer}
    (fails : ∀ error, reply (.error error) = op.failure error)
    (lands : ∀ inside, state.readings ⊆ inside.readings →
      (overSqlite chrono connection aead may timely).Lands tid (.storage op) (Answered reply) body.run none inside) :
    (overSqlite chrono connection aead may timely).Lands tid (.storage op) (Answered reply) (withConnection body) none
      state := by
  rw [withConnection_eq]
  intro before moved vault answer after agrees _ performed
  cases performed with
  | respond alive responded =>
      simp only [DatabaseState.respond] at responded
      split at responded
      · cases responded
        refine ⟨fun _ _ => List.Subset.refl _, .inl ⟨?_, ?_⟩⟩
        · exact ⟨agrees.tabulates, agrees.clock, agrees.readings, agrees.drawn, agrees.shown, agrees.fourDigits⟩
        have inside := lands { before with mutexes := Function.update before.mutexes (connection tid) (some tid) } moved
        refine inside.bind fun result landed state ends => ?_
        intro before moved vault answer after agrees _ performed
        cases performed with
        | respond alive responded =>
            cases responded
            refine ⟨fun _ _ => List.Subset.refl _, .inl ⟨?_, fun now _ => ends⟩⟩
            exact ⟨agrees.tabulates, agrees.clock, agrees.readings, agrees.drawn, agrees.shown, agrees.fourDigits⟩
        | fail alive failed => contradiction
      · contradiction
  | fail alive failed =>
      rename_i message
      cases failed
      refine ⟨fun _ _ => List.Subset.refl _, .inr ⟨rfl, _, vault, .fail op (.io ("mutex poisoned: " ++ message)),
        agrees, fun now _ => ?_⟩⟩
      exact congrArg some (fails _).symm

theorem SqliteStore.lands_insert (documented : chrono.Documented) (recordId : RecordId) (record : StoredRecord) :
    (overSqlite chrono connection aead may timely).Lands tid (.storage (.insert recordId record))
      (fun answer landed _ => landed = some answer) (SqliteStore.insert chrono recordId record) none state := by
  refine @lands_withConnection _ _ _ _ _ _ _ (.insert recordId record) _ _ id (fun _ => rfl) fun inside _ => ?_
  refine lands_statement (by simp) (by simp) ?_ ?_
  · intro before vault _ agrees permitted
    obtain ⟨other, readable⟩ := permitted.1 recordId _ _ rfl
    obtain ⟨storedAt, expiresAt⟩ := plain_of_readable documented readable
    exact ⟨before.clock, agrees.shown, by simp, agrees.tabulates.insert recordId storedAt expiresAt, _, rfl, rfl⟩
  · intro message answer failed
    cases failed
    exact ⟨.io message, _, rfl, rfl⟩

theorem SqliteStore.lands_fetch (documented : chrono.Documented) (recordId : RecordId) :
    (overSqlite chrono connection aead may timely).Lands tid (.storage (.fetch recordId))
      (fun answer landed _ => landed = some answer) (SqliteStore.fetch chrono recordId) none state := by
  refine @lands_withConnection _ _ _ _ _ _ _ (.fetch recordId) _ _ id (fun _ => rfl) fun inside _ => ?_
  refine lands_statement (by simp) (by simp) ?_ ?_
  · intro before vault _ agrees _
    have fourDigits := agrees.fourDigits _ agrees.shown
    obtain ⟨next, stepped, tabulates⟩ :=
      agrees.tabulates.step documented fourDigits
        (by simp : ∀ other record, BackendOp.fetch recordId ≠ .insert other record)
    rw [SqliteStore.step_fetch] at stepped
    simp only [Option.some.injEq, Prod.mk.injEq, Sigma.mk.injEq, heq_eq_eq, true_and] at stepped
    obtain ⟨same, rfl⟩ := stepped
    refine ⟨before.clock, agrees.shown, by simp, tabulates, _, ?_, same⟩
    cases found : before.table[recordId]? with
    | none => simp only [Table.apply, found]; rfl
    | some row => simp only [Table.apply, found]; rfl
  · intro message answer failed
    cases failed
    exact ⟨.io message, _, rfl, rfl⟩

theorem SqliteStore.lands_delete (documented : chrono.Documented) (recordId : RecordId) :
    (overSqlite chrono connection aead may timely).Lands tid (.storage (.delete recordId))
      (fun answer landed _ => landed = some answer) (SqliteStore.delete recordId) none state := by
  refine @lands_withConnection _ _ _ _ _ _ _ (.delete recordId) _ _ id (fun _ => rfl) fun inside _ => ?_
  refine lands_statement (by simp) (by simp) ?_ ?_
  · intro before vault _ agrees _
    have fourDigits := agrees.fourDigits _ agrees.shown
    obtain ⟨next, stepped, tabulates⟩ :=
      agrees.tabulates.step documented fourDigits
        (by simp : ∀ other record, BackendOp.delete recordId ≠ .insert other record)
    rw [SqliteStore.step_delete] at stepped
    simp only [Option.some.injEq, Prod.mk.injEq, Sigma.mk.injEq, heq_eq_eq, true_and] at stepped
    obtain ⟨same, rfl⟩ := stepped
    refine ⟨before.clock, agrees.shown, by simp, tabulates, _, rfl, ?_⟩
    rw [← same]
    cases before.table.contains recordId <;> rfl
  · intro message answer failed
    cases failed
    exact ⟨.io message, _, rfl, rfl⟩

theorem SqliteStore.lands_deleteExpired (documented : chrono.Documented) :
    (overSqlite chrono connection aead may timely).Lands tid (.storage .deleteExpired)
      (fun answer landed _ => landed = some answer) (SqliteStore.deleteExpired chrono) none state := by
  intro before _ vault answer after agrees permitted performed
  cases performed with
  | respond alive responded =>
      cases responded
      refine ⟨fun _ _ => List.Subset.refl _, .inl ⟨agrees, ?_⟩⟩
      have sweeps := @lands_withConnection chrono connection aead may timely tid _ .deleteExpired before
        (execute (Host.storage (SqlOp.deleteRowsUpTo (chrono.toRfc3339 before.clock)))) id (fun _ => rfl)
        fun inside moved => ?_
      · exact sweeps
      refine lands_statement (by simp) (by simp) ?_ ?_
      · intro sweeping vault moved' agrees' _
        have shown : before.clock ∈ sweeping.readings := moved' (moved agrees.shown)
        obtain ⟨next, stepped, tabulates⟩ := agrees'.tabulates.step documented (agrees'.fourDigits _ shown)
          (by simp : ∀ other record, BackendOp.deleteExpired ≠ .insert other record)
        rw [SqliteStore.step_deleteExpired] at stepped
        simp only [Option.some.injEq, Prod.mk.injEq, Sigma.mk.injEq, heq_eq_eq, true_and] at stepped
        obtain ⟨same, rfl⟩ := stepped
        exact ⟨before.clock, shown, fun _ => permitted.2 _ rfl, tabulates, _, rfl, same⟩
      · intro message answer failed
        cases failed
        exact ⟨.io message, _, rfl, rfl⟩

theorem SqliteStore.lands_perform (documented : chrono.Documented) (op : BackendOp) :
    (overSqlite chrono connection aead may timely).Lands tid (.storage op)
      (fun answer landed _ => landed = some answer) ((SqliteStore.backend chrono).perform op) none state := by
  cases op with
  | insert recordId record => exact lands_insert documented recordId record
  | fetch recordId => exact lands_fetch documented recordId
  | delete recordId => exact lands_delete documented recordId
  | deleteExpired => exact lands_deleteExpired documented

/-- What a call asks of its machine happens at one step. -/
theorem lands_machine {op : HostOp BackendOp} {small : HostOp SqlOp}
    {next : HostOp.Answer SqlOp.Answer small → Host SqlOp.Answer (HostOp.Answer BackendOp.Answer op)}
    (machine : ∀ store, op ≠ .storage store)
    (happens : ∀ before after vault answer, DatabaseAgrees chrono before vault →
      DatabaseAct connection tid before ⟨small, answer⟩ after → after = { before with drawn := after.drawn } ∧
        ∃ result vault', next answer = .done result ∧ VaultAct vault ⟨op, result⟩ vault' ∧
          DatabaseAgrees chrono after vault') :
    (overSqlite chrono connection aead may timely).Lands tid op (fun answer landed _ => landed = some answer)
      (.step small next) none state := by
  intro before _ vault answer after agrees _ performed
  obtain ⟨same, result, vault', returns, act, agrees'⟩ := happens before after vault answer agrees performed
  rw [returns]
  rw [same] at agrees' ⊢
  exact ⟨fun _ _ => List.Subset.refl _, .inr ⟨rfl, result, vault', .machine act machine, agrees', fun _ _ => rfl⟩⟩

end Operations

section Refinement

variable {state : DatabaseState}

theorem lands_over (documented : chrono.Documented) (op : HostOp BackendOp) :
    (overSqlite chrono connection aead may timely).Lands tid op (fun answer landed _ => landed = some answer)
      ((SqliteStore.backend chrono).lower op) none state := by
  cases op with
  | storage op => exact SqliteStore.lands_perform documented op
  | panic message => exact lands_machine (by simp) fun _ _ _ answer => answer.elim
  | now =>
      refine lands_machine (by simp) fun before after vault answer agrees performed => ?_
      cases performed with
      | respond alive responded =>
          cases responded
          refine ⟨rfl, _, vault, rfl, ?_, agrees⟩
          rw [← agrees.clock]
          exact .now
  | log line =>
      refine lands_machine (by simp) fun before after vault answer agrees performed => ?_
      cases performed with
      | respond alive responded =>
          cases responded
          exact ⟨rfl, _, vault, rfl, .log line, agrees⟩
  | generateKey =>
      refine lands_machine (by simp) fun before after vault answer agrees performed => ?_
      cases performed with
      | respond alive responded => contradiction
      | generateKey key alive => exact ⟨rfl, answer, vault, rfl, .generateKey answer, agrees⟩
  | generateNonce =>
      refine lands_machine (by simp) fun before after vault answer agrees performed => ?_
      cases performed with
      | respond alive responded => contradiction
      | generateNonce nonce alive => exact ⟨rfl, answer, vault, rfl, .generateNonce answer, agrees⟩
  | newV4 =>
      refine lands_machine (by simp) fun before after vault answer agrees performed => ?_
      cases performed with
      | respond alive responded => contradiction
      | newV4 alive fresh =>
          rw [← agrees.drawn] at fresh
          exact ⟨rfl, _, _, rfl, .newV4 fresh, agrees.tabulates, agrees.clock, agrees.readings,
            congrArg _ agrees.drawn, agrees.shown, agrees.fourDigits⟩

/-- Vault calls over the database refine vault calls over single operations. -/
def sqliteRefinement (documented : chrono.Documented) (connection : Nat → Nat) (aead : Aead)
    (may : DateTime → DateTime → Prop) (timely : Nat → DateTime → Prop) :
    Refinement (sqliteVaults chrono connection aead) where
  toCorrespondence := overSqlite chrono connection aead may timely
  drifts vault now := may vault.clock now
  lands _ _ op _ _ := (lands_over documented op).weaken fun _ _ _ landed => ⟨landed, trivial⟩
  drift := by
    intro state env state' vault permitted changed agrees
    simp only at changed
    subst changed
    cases env with
    | tick now =>
        obtain ⟨fourDigits, moves⟩ := permitted now rfl
        refine ⟨fun _ => List.subset_cons_self _ _, .inr ⟨now, _, ?_, rfl, ?_⟩⟩
        · rw [agrees.clock]
          exact moves
        · exact ⟨agrees.tabulates, rfl, congrArg _ agrees.readings, agrees.drawn, List.mem_cons_self,
            List.forall_mem_cons.mpr ⟨fourDigits, agrees.fourDigits⟩⟩
    | kill victims =>
        exact ⟨fun _ => List.Subset.refl _, .inl ⟨agrees.tabulates, agrees.clock, agrees.readings, agrees.drawn,
          agrees.shown, agrees.fourDigits⟩⟩

end Refinement

/-- A run in which every row that is inserted can be read back, and the clock shows years
of four digits and moves as `may` says. -/
def Readable (chrono : Chrono) (connection : Nat → Nat) (aead : Aead) (may : DateTime → DateTime → Prop)
    (config : Config (sqliteVaults chrono connection aead).low)
    (label : Label (sqliteVaults chrono connection aead).low) : Prop :=
  (∀ tid recordId row answer, label = .act tid ⟨.storage (.insertOrReplace recordId row), answer⟩ →
    ∃ record, SqliteStore.recordOf chrono row = .ok record) ∧
    ∀ now, label = .drift (.tick now) → now.FourDigits ∧ may config.shared.clock now

/-- A configuration of single operations explains one of statements: the rows are those
of its records, the same calls are there, and what has returned has returned the same. -/
structure Tabulated (chrono : Chrono) {connection : Nat → Nat} {aead : Aead}
    (config : Config (sqliteVaults chrono connection aead).low) (config' : Config (vaultSystem aead)) : Prop extends
    Refinement.Mirrored config config' where
  represents : Table.Represents chrono config.shared.table config'.shared.records
  clock : config'.shared.clock = config.shared.clock

section Runs

variable {first middle last : Config (sqliteVaults chrono connection aead).low} {first' : Config (vaultSystem aead)}
  {labels labels' : List (Label (sqliteVaults chrono connection aead).low)}

theorem tabulated_of_related {documented : chrono.Documented}
    (related : (sqliteRefinement documented connection aead may timely).Related first first') :
    Tabulated chrono first first' where
  toMirrored := related.mirrored
  represents := related.agrees.tabulates.represents
  clock := related.agrees.clock

theorem meets_of_readable {documented : chrono.Documented} {label : Label (sqliteVaults chrono connection aead).low}
    (readable : Readable chrono connection aead may first label)
    (onTime : ∀ tid now, label = .act tid ⟨.now, now⟩ → timely tid now) :
    (sqliteRefinement documented connection aead may timely).Meets first label := by
  cases label with
  | invoke tid call => trivial
  | act tid event =>
      exact ⟨fun recordId row answer same => readable.1 tid recordId row answer (congrArg _ same),
        fun now same => onTime tid now (congrArg _ same)⟩
  | drift env => exact fun now same => readable.2 now (congrArg _ same)

theorem explains_clockMay {documented : chrono.Documented} {label : Label (vaultSystem aead)}
    {last' : Config (vaultSystem aead)}
    (explains : (sqliteRefinement documented connection aead may timely).Explains first' label last') :
    ClockMay may first' label := by
  intro now same
  subst same
  exact explains

theorem tabulated_alongside {documented : chrono.Documented}
    {steps : List (Label (sqliteVaults chrono connection aead).low × Config (sqliteVaults chrono connection aead).low)}
    (related : (sqliteRefinement documented connection aead may fun _ _ => True).Related first first')
    (run : Passage (Readable chrono connection aead may) first steps last) :
    ∃ ops last', Alongside (fun config op _ => ClockMay may config op)
      (sqliteRefinement documented connection aead may fun _ _ => True).Related first first' steps last ops
      last' := by
  obtain ⟨ops, last', along⟩ := related.alongside
    (run.weaken fun _ _ readable => meets_of_readable readable fun _ _ _ => trivial)
  exact ⟨ops, last', along.mono (fun _ _ _ => explains_clockMay) fun _ _ => id⟩

theorem tabulated_run {documented : chrono.Documented}
    (related : (sqliteRefinement documented connection aead may fun _ _ => True).Related first first')
    (run : RunWhere (Readable chrono connection aead may) first labels last) :
    ∃ ops last', RunWhere (ClockMay may) first' ops last' ∧
      (sqliteRefinement documented connection aead may fun _ _ => True).Related last last' := by
  obtain ⟨_, passage⟩ := Passage.of_run run
  obtain ⟨ops, last', along⟩ := tabulated_alongside related passage
  exact ⟨ops, last', along.runThrough.runWhere fun _ _ _ => id, along.related⟩

theorem tabulated_runs {documented : chrono.Documented}
    (start : (sqliteRefinement documented connection aead may fun _ _ => True).Related first first')
    (before : RunWhere (Readable chrono connection aead may) first labels middle)
    (after : RunWhere (Readable chrono connection aead may) middle labels' last) :
    ∃ ops ops' middle' last', RunWhere (ClockMay may) first' ops middle' ∧ Tabulated chrono middle middle' ∧
      RunWhere (ClockMay may) middle' ops' last' ∧ Tabulated chrono last last' := by
  obtain ⟨ops, middle', ran, related⟩ := tabulated_run start before
  obtain ⟨ops', last', ran', related'⟩ := tabulated_run related after
  exact ⟨ops, ops', middle', last', ran, tabulated_of_related related, ran', tabulated_of_related related'⟩

end Runs

end TariVault
