import TariVault.Storage.Serialised

namespace TariVault

open Program

/-! # Operations over a file system that fails

Each step may fail with a message. Until the rename nothing happens to the vault
file, but the rename is not the last step: the permissions are set after it, and
when that fails the operation reports an error for a change that it made.
-/

/-- Which steps fail, with which message, and how much of its text a failing write
still gets into the temporary file. -/
structure Faults where
  error : FileOp → Option String
  partialLength : Nat

/-- The answer of a step that fails, if it can. -/
def FileOp.failed (message : String) : (op : FileOp) → Option op.Answer
  | .createDirAll => some (.error message)
  | .openLockFile => some (.error message)
  | .lockExclusive => some (.error message)
  | .read => some (.error message)
  | .newTemp => some (.error message)
  | .writeAll _ => some (.error message)
  | .flush => some (.error message)
  | .persist => some (.error message)
  | .setPermissions => some (.error message)
  | _ => none

/-- What a failing step leaves: only a failing write leaves anything. -/
def Disk.interrupted (tid length : Nat) (disk : Disk) : FileOp → Disk
  | .writeAll bytes =>
      match disk.temps tid with
      | some written => disk.setTemp tid (some (written ++ bytes.take length))
      | none => disk
  | _ => disk

theorem Disk.interrupted_vault {tid length : Nat} {disk : Disk} {op : FileOp} :
    (disk.interrupted tid length op).vault = disk.vault := by
  unfold Disk.interrupted
  split
  · split <;> rfl
  · rfl

theorem Disk.interrupted_temps {tid length other : Nat} {disk : Disk} {op : FileOp} (different : other ≠ tid) :
    (disk.interrupted tid length op).temps other = disk.temps other := by
  unfold Disk.interrupted
  split
  · split
    · exact Function.update_of_ne different ..
    · rfl
  · rfl

def Faults.respond (faults : Faults) (tid : Nat) (state : FileState) :
    (op : HostOp FileOp) → Option (HostOp.Answer FileOp.Answer op × FileState)
  | .storage op =>
      match (faults.error op).bind op.failed with
      | some answer =>
          some (answer, { state with disk := state.disk.interrupted tid faults.partialLength op })
      | none => state.respond tid (.storage op)
  | op => state.respond tid op

/-- A whole call by itself over a file system with faults. -/
def FileCall.attempt (serde : Serde) (faults : Faults) (call : FileCall) (tid : Nat) (now : DateTime)
    (disk : Disk) : Option (BackendResult × Disk) :=
  ((call.code serde).run (faults.respond tid) (.idle disk now)).map fun result =>
    (result.1, result.2.disk)

variable {serde : Serde} {faults : Faults} {tid : Nat} {state : FileState} {hasParent : Bool}
  {next : DiskState} {op : BackendOp} {now : DateTime}

/-- Nothing fails up to the rename, which puts `text` in place. -/
structure Renames (serde : Serde) (hasParent : Bool) (faults : Faults) (next : DiskState)
    (text : Bytes) : Prop where
  parent : hasParent = true
  serialized : next.toVecPretty serde = .ok text
  created : faults.error .newTemp = none
  written : faults.error (.writeAll text) = none
  flushed : faults.error .flush = none
  renamed : faults.error .persist = none

theorem respond_healthy {op : FileOp} (healthy : faults.error op = none) (state : FileState) :
    faults.respond tid state (.storage op) = state.respond tid (.storage op) := by
  simp only [Faults.respond, healthy, Option.bind_none]

theorem respond_faulty {op : FileOp} {message : String} {answer : op.Answer}
    (faulty : faults.error op = some message) (fails : op.failed message = some answer)
    (state : FileState) : faults.respond tid state (.storage op) =
      some (answer, { state with disk := state.disk.interrupted tid faults.partialLength op }) := by
  simp only [Faults.respond, faulty, Option.bind_some, fails]

theorem respond_sure {op : FileOp} (sure : ∀ message, op.failed message = none) (state : FileState) :
    faults.respond tid state (.storage op) = state.respond tid (.storage op) := by
  simp only [Faults.respond]
  cases faults.error op with
  | none => rfl
  | some message => rw [Option.bind_some, sure]

/-- What the caller of a write that has renamed gets to see. -/
def Faults.verdict (faults : Faults) : Except StorageError Unit :=
  match faults.error .setPermissions with
  | some message => .error (.io message)
  | none => .ok ()

theorem writeAtomic_renames {text : Bytes} (renames : Renames serde hasParent faults next text)
    (state : FileState) :
    ∃ state', (writeAtomic serde hasParent next).run.run (faults.respond tid) state =
      some (faults.verdict, state') ∧ state'.disk.vault = some text := by
  let opened : FileState := { state with disk := state.disk.setTemp tid (some []) }
  let full : FileState := { opened with disk := opened.disk.setTemp tid (some text) }
  let renamed : FileState :=
    { full with disk := { full.disk.setTemp tid none with vault := some text } }
  have openedTemp : opened.disk.temps tid = some [] := Function.update_self ..
  have fullTemp : full.disk.temps tid = some text := Function.update_self ..
  have created : faults.respond tid state (.storage .newTemp) = some (.ok (), opened) :=
    respond_healthy renames.created state
  have wrote : faults.respond tid opened (.storage (.writeAll text)) = some (.ok (), full) := by
    rw [respond_healthy renames.written]
    simp only [FileState.respond, Disk.apply, openedTemp, List.nil_append, Option.map_some, full]
  have flushed : faults.respond tid full (.storage .flush) = some (.ok (), full) :=
    respond_healthy renames.flushed full
  have persisted : faults.respond tid full (.storage .persist) = some (.ok (), renamed) := by
    rw [respond_healthy renames.renamed]
    simp only [FileState.respond, Disk.apply, fullTemp, Option.map_some, renamed]
  have serialized : (FileM.json (next.toVecPretty serde)).run.run (faults.respond tid) opened =
      some (.ok text, opened) := by
    rw [FileM.run_json, renames.serialized]
    rfl
  have body : (fillAndPersist serde next).run.run (faults.respond tid) opened =
      some (.ok (), renamed) := by
    rw [fillAndPersist, run_ok_bind serialized, run_ok_bind (FileM.run_io (FileM.run_storage wrote)),
      run_ok_bind (FileM.run_io (FileM.run_storage flushed))]
    exact FileM.run_io (FileM.run_storage persisted)
  have restricted : (FileM.io (Host.storage FileOp.setPermissions)).run.run (faults.respond tid) renamed =
      some (faults.verdict, renamed) := by
    unfold Faults.verdict
    cases faulty : faults.error .setPermissions with
    | none =>
        have answered : faults.respond tid renamed (.storage .setPermissions) = some (.ok (), renamed) :=
          respond_healthy faulty renamed
        exact FileM.run_io (FileM.run_storage answered)
    | some message =>
        have answered : faults.respond tid renamed (.storage .setPermissions) =
            some (.error message, renamed) := respond_faulty faulty rfl renamed
        exact FileM.run_io (FileM.run_storage answered)
  refine ⟨renamed, ?_, rfl⟩
  rw [writeAtomic, if_pos renames.parent, run_ok_bind (FileM.run_io (FileM.run_storage created)),
    run_ok_bind (FileM.run_orDropTemp_ok body), restricted]

/-- Filling a temporary file without renaming it fails and leaves the vault file. -/
theorem fillAndPersist_stops (created : faults.error .newTemp = none)
    (stops : ∀ text, ¬ Renames serde true faults next text) (state : FileState)
    (empty : state.disk.temps tid = some []) :
    ∃ error state', (fillAndPersist serde next).run.run (faults.respond tid) state =
      some (.error error, state') ∧ state'.disk.vault = state.disk.vault := by
  unfold fillAndPersist
  cases serialized : next.toVecPretty serde with
  | error message => exact ⟨.json message, state, rfl, rfl⟩
  | ok text =>
  have encoded : (FileM.json (Except.ok text : Except String Bytes)).run.run (faults.respond tid) state =
      some (.ok text, state) := FileM.run_json
  cases written : faults.error (.writeAll text) with
  | some message =>
      let failed : FileState := { state with
        disk := state.disk.interrupted tid faults.partialLength (.writeAll text) }
      have answered : faults.respond tid state (.storage (.writeAll text)) =
          some (.error message, failed) := respond_faulty written rfl state
      refine ⟨.io message, failed, ?_, Disk.interrupted_vault⟩
      rw [run_ok_bind encoded, run_error_bind (FileM.run_io (FileM.run_storage answered))]
  | none =>
  let full : FileState := { state with disk := state.disk.setTemp tid (some text) }
  have wrote : faults.respond tid state (.storage (.writeAll text)) = some (.ok (), full) := by
    rw [respond_healthy written]
    simp only [FileState.respond, Disk.apply, empty, List.nil_append, Option.map_some, full]
  cases flushed : faults.error .flush with
  | some message =>
      have answered : faults.respond tid full (.storage .flush) = some (.error message, full) :=
        respond_faulty flushed rfl full
      refine ⟨.io message, full, ?_, rfl⟩
      rw [run_ok_bind encoded, run_ok_bind (FileM.run_io (FileM.run_storage wrote)),
        run_error_bind (FileM.run_io (FileM.run_storage answered))]
  | none =>
  have synced : faults.respond tid full (.storage .flush) = some (.ok (), full) :=
    respond_healthy flushed full
  cases renamed : faults.error .persist with
  | some message =>
      have answered : faults.respond tid full (.storage .persist) = some (.error message, full) :=
        respond_faulty renamed rfl full
      refine ⟨.io message, full, ?_, rfl⟩
      rw [run_ok_bind encoded, run_ok_bind (FileM.run_io (FileM.run_storage wrote)),
        run_ok_bind (FileM.run_io (FileM.run_storage synced))]
      exact FileM.run_io (FileM.run_storage answered)
  | none => exact absurd ⟨rfl, serialized, created, written, flushed, renamed⟩ (stops text)

/-- A write that does not rename fails and leaves the vault file. -/
theorem writeAtomic_stops (stops : ∀ text, ¬ Renames serde hasParent faults next text)
    (state : FileState) :
    ∃ error state', (writeAtomic serde hasParent next).run.run (faults.respond tid) state =
      some (.error error, state') ∧ state'.disk.vault = state.disk.vault := by
  cases hasParent with
  | false => exact ⟨_, state, rfl, rfl⟩
  | true =>
  cases created : faults.error .newTemp with
  | some message =>
      have answered : faults.respond tid state (.storage .newTemp) = some (.error message, state) :=
        respond_faulty created rfl state
      refine ⟨.io message, state, ?_, rfl⟩
      rw [writeAtomic, if_pos rfl, run_error_bind]
      exact FileM.run_io (FileM.run_storage answered)
  | none =>
  let opened : FileState := { state with disk := state.disk.setTemp tid (some []) }
  have answered : faults.respond tid state (.storage .newTemp) = some (.ok (), opened) :=
    respond_healthy created state
  obtain ⟨error, failed, ran, unchanged⟩ :=
    fillAndPersist_stops created stops opened (Function.update_self ..)
  let dropped : FileState := { failed with disk := failed.disk.setTemp tid none }
  have drops : faults.respond tid failed (.storage .dropTemp) = some ((), dropped) := by
    exact respond_sure (fun _ => rfl) failed
  refine ⟨error, dropped, ?_, unchanged⟩
  rw [writeAtomic, if_pos rfl, run_ok_bind (FileM.run_io (FileM.run_storage answered))]
  exact run_error_bind (FileM.run_orDropTemp_error ran drops)

/-- The operation renames a new text over the vault file, and then fails to set its
permissions. -/
def RenamesThenFails (serde : Serde) (hasParent : Bool) (faults : Faults) (op : BackendOp) (now : DateTime)
    (vault : Option Bytes) : Prop :=
  ∃ bytes state next text message, faults.error .read = none ∧ vault = some bytes ∧
    DiskState.fromSlice serde bytes = .ok state ∧ op.rewrite now state = some next ∧
    Renames serde hasParent faults next text ∧ faults.error .setPermissions = some message ∧
    text ≠ bytes

theorem readState_faulty (state : FileState) :
    (∃ bytes read, (LocalFileStore.readState serde).run.run (faults.respond tid) state =
        some (.ok read, state) ∧ faults.error .read = none ∧ state.disk.vault = some bytes ∧
        DiskState.fromSlice serde bytes = .ok read) ∨
      ∃ error, (LocalFileStore.readState serde).run.run (faults.respond tid) state =
        some (.error error, state) ∧
        ∀ op now, ¬ RenamesThenFails serde hasParent faults op now state.disk.vault := by
  unfold LocalFileStore.readState
  cases healthy : faults.error .read with
  | some message =>
      have answered : faults.respond tid state (.storage .read) = some (.error message, state) :=
        respond_faulty healthy rfl state
      refine .inr ⟨.io message, ?_, fun op now => ?_⟩
      · rw [run_error_bind (FileM.run_io (FileM.run_storage answered))]
      · intro holds
        obtain ⟨_, _, _, _, _, readable, _⟩ := holds
        rw [healthy] at readable
        contradiction
  | none =>
  cases vault : state.disk.vault with
  | none =>
      have answered : faults.respond tid state (.storage .read) =
          some (.error "No such file or directory (os error 2)", state) := by
        rw [respond_healthy healthy]
        simp only [FileState.respond, Disk.apply, vault, Option.map_some]
      refine .inr ⟨.io "No such file or directory (os error 2)", ?_, fun op now => ?_⟩
      · rw [run_error_bind (FileM.run_io (FileM.run_storage answered))]
      · intro holds
        obtain ⟨_, _, _, _, _, _, exists_, _⟩ := holds
        contradiction
  | some bytes =>
  have answered : faults.respond tid state (.storage .read) = some (.ok bytes, state) := by
    rw [respond_healthy healthy]
    simp only [FileState.respond, Disk.apply, vault, Option.map_some]
  cases parsed : DiskState.fromSlice serde bytes with
  | ok read =>
      refine .inl ⟨bytes, read, ?_, rfl, rfl, parsed⟩
      rw [run_ok_bind (FileM.run_io (FileM.run_storage answered)), FileM.run_json, parsed]
      rfl
  | error message =>
      refine .inr ⟨.json message, ?_, fun op now => ?_⟩
      · rw [run_ok_bind (FileM.run_io (FileM.run_storage answered)), FileM.run_json, parsed]
        rfl
      · intro holds
        obtain ⟨_, read, _, _, _, _, same, readable, _⟩ := holds
        cases same
        rw [parsed] at readable
        contradiction

theorem renamesThenFails_iff {bytes : Bytes} {read : DiskState} (readable : faults.error .read = none)
    (parsed : DiskState.fromSlice serde bytes = .ok read) :
    RenamesThenFails serde hasParent faults op now (some bytes) ↔ ∃ next text message,
      op.rewrite now read = some next ∧ Renames serde hasParent faults next text ∧
        faults.error .setPermissions = some message ∧ text ≠ bytes := by
  constructor
  · intro holds
    obtain ⟨_, other, next, text, message, _, sameVault, sameParsed, rest⟩ := holds
    cases sameVault
    rw [parsed, Except.ok.injEq] at sameParsed
    subst sameParsed
    exact ⟨next, text, message, rest⟩
  · intro holds
    obtain ⟨next, text, message, rest⟩ := holds
    exact ⟨bytes, read, next, text, message, readable, rfl, parsed, rest⟩

/-- An operation that fails leaves the vault file, unless it renamed and failed
afterwards. -/
theorem transact_faulty (state : FileState) :
    ∃ answer state', (transact serde hasParent op now).run (faults.respond tid) state =
        some (answer, state') ∧
      ((op.Failed answer → state'.disk.vault = state.disk.vault) ↔
        ¬ RenamesThenFails serde hasParent faults op now state.disk.vault) := by
  unfold transact
  rcases @readState_faulty serde faults tid hasParent state with
    ⟨bytes, read, ran, readable, vault, parsed⟩ | ⟨error, ran, harmless⟩
  · rw [run_bind_of_eq ran, vault, renamesThenFails_iff readable parsed]
    simp only [transition]
    cases rewritten : op.rewrite now read with
    | none =>
        refine ⟨_, state, rfl, iff_of_true (fun _ => vault) ?_⟩
        intro holds
        obtain ⟨_, _, _, impossible, _⟩ := holds
        contradiction
    | some next =>
        simp only
        by_cases renames : ∃ text, Renames serde hasParent faults next text
        · obtain ⟨text, renames⟩ := renames
          obtain ⟨state', wrote, replaced⟩ := @writeAtomic_renames _ _ tid _ _ _ renames state
          rw [run_bind_of_eq wrote]
          unfold Faults.verdict
          cases restricted : faults.error .setPermissions with
          | none =>
              refine ⟨_, state', rfl, iff_of_true ?_ ?_⟩
              · exact fun failed => absurd failed (BackendOp.not_failed_of_rewrite rewritten)
              · intro holds
                obtain ⟨_, _, _, _, _, impossible, _⟩ := holds
                contradiction
          | some message =>
              refine ⟨_, state', rfl, ⟨fun unchanged => ?_, fun harmless _ => ?_⟩⟩
              · intro holds
                obtain ⟨_, other, _, same, others, _, different⟩ := holds
                cases same
                have sameText := others.serialized
                rw [renames.serialized, Except.ok.injEq] at sameText
                have kept := unchanged ⟨_, rfl⟩
                rw [replaced, Option.some.injEq] at kept
                exact different (sameText.symm.trans kept)
              · rw [replaced]
                by_contra different
                exact harmless ⟨next, text, message, rfl, renames, rfl,
                  fun same => different (congrArg some same)⟩
        · obtain ⟨error, state', wrote, unchanged⟩ := @writeAtomic_stops _ _ tid _ _
            (not_exists.mp renames) state
          rw [run_bind_of_eq wrote]
          refine ⟨_, state', rfl, iff_of_true (fun _ => unchanged.trans vault) ?_⟩
          intro holds
          obtain ⟨_, text, _, same, others, _⟩ := holds
          cases same
          exact renames ⟨text, others⟩
  · rw [run_bind_of_eq ran]
    exact ⟨_, state, rfl, iff_of_true (fun _ => rfl) (harmless op now)⟩

theorem finish_faulty (call : FileCall) (result : BackendResult) (state : FileState) :
    ∃ state', (call.finish result).run (faults.respond tid) state = some (result, state') ∧
      state'.disk = state.disk := by
  refine ⟨if state.mutexes call.store.processLock = some tid then
    { state with mutexes := Function.update state.mutexes call.store.processLock none } else state,
    ?_, by split <;> rfl⟩
  exact run_step (respond_sure (fun _ => rfl) state)

theorem before_faulty (call : FileCall) (disk : Disk) :
    ∃ held : FileState, held.disk = disk ∧ held.sidecar = none ∧
      ∀ opened, faults.respond tid held (.storage .openLockFile) = some (opened, held) →
        call.before.run (faults.respond tid) (.idle disk now) =
          (match opened with
            | .ok _ => .done (.ok (FileCall.captureAt now call.op))
            | .error message => Except.error <$> call.finish (call.refusal message) :
              Host FileOp.Answer (Except BackendResult (Option DateTime))).run (faults.respond tid) held := by
  let held : FileState := { FileState.idle disk now with
    mutexes := Function.update (fun _ => none) call.store.processLock (some tid) }
  have taken : faults.respond tid (.idle disk now) (.storage (.lockProcess call.store.processLock)) =
      some ((), held) := respond_sure (fun _ => rfl) _
  have captured : (FileCall.capture call.op).run (faults.respond tid) held =
      some (FileCall.captureAt now call.op, held) := by
    unfold FileCall.capture FileCall.captureAt
    split <;> rfl
  refine ⟨held, rfl, rfl, fun opened answered => ?_⟩
  rw [FileCall.before]
  calc
    _ = _ := run_step taken
    _ = _ := run_bind_of_eq captured
    _ = _ := run_step answered
    _ = _ := by cases opened <;> rfl

/-- A call that cannot open or lock the sidecar file touches nothing. -/
theorem attempt_refused (call : FileCall) (disk : Disk)
    (refused : ¬ (faults.error .openLockFile = none ∧ faults.error .lockExclusive = none)) :
    ∃ result, call.attempt serde faults tid now disk = some (result, disk) := by
  obtain ⟨held, sameDisk, free, prepared⟩ := @before_faulty faults tid now call disk
  have finishes (message : String) :=
    @finish_faulty faults tid call (call.refusal message) held
  rw [FileCall.attempt, FileCall.code_eq]
  cases opened : faults.error .openLockFile with
  | some message =>
      have ran := prepared (.error message) (respond_faulty opened rfl held)
      obtain ⟨state', finished, same⟩ := finishes message
      simp only [run_map, finished, Option.map_some] at ran
      refine ⟨call.refusal message, ?_⟩
      rw [run_bind_of_eq ran]
      simp only [entering, run_done, Option.map_some, same, sameDisk]
  | none =>
  have ran := prepared (.ok ()) (respond_healthy opened held)
  rw [run_bind_of_eq ran]
  cases locked : faults.error .lockExclusive with
  | none => exact absurd ⟨opened, locked⟩ refused
  | some message =>
      have answered : faults.respond tid held (.storage .lockExclusive) =
          some (.error message, held) := respond_faulty locked rfl held
      obtain ⟨state', finished, same⟩ := finishes message
      refine ⟨call.refusal message, ?_⟩
      simp only [entering]
      rw [run_step answered]
      simp only [FileCall.onEnter, finished, Option.map_some, same, sameDisk]

/-- A call that locks the sidecar file answers as its operation on the file does. -/
theorem attempt_locked (call : FileCall) (disk : Disk) (opened : faults.error .openLockFile = none)
    (locked : faults.error .lockExclusive = none) :
    ∃ inside : FileState, inside.disk = disk ∧ ∀ answer closed,
      (transact serde call.store.hasParent call.op now).run (faults.respond tid) inside =
        some (answer, closed) →
      call.attempt serde faults tid now disk = some (⟨call.op, answer⟩, closed.disk) := by
  obtain ⟨held, sameDisk, free, prepared⟩ := @before_faulty faults tid now call disk
  have reached := prepared (.ok ()) (respond_healthy opened held)
  let inside : FileState := { held with sidecar := some tid }
  have answered : faults.respond tid held (.storage .lockExclusive) = some (.ok (), inside) := by
    rw [respond_healthy locked]
    simp only [FileState.respond, free, inside]
  refine ⟨inside, sameDisk, fun answer closed ran => ?_⟩
  have closes : (call.closure serde (FileCall.captureAt now call.op)).run (faults.respond tid) inside =
      some (⟨call.op, answer⟩, closed) := by
    rw [FileCall.closure_eq, run_map, ran]
    rfl
  let released : FileState := { closed with sidecar := none }
  have unlocked : faults.respond tid closed (.storage .unlock) = some ((), released) :=
    respond_sure (fun _ => rfl) closed
  obtain ⟨state', finished, same⟩ := @finish_faulty faults tid call ⟨call.op, answer⟩ released
  rw [FileCall.attempt, FileCall.code_eq, run_bind_of_eq reached]
  simp only [entering]
  rw [run_step answered]
  simp only [FileCall.onEnter]
  rw [run_bind_of_eq closes, run_step unlocked, finished, Option.map_some, same]

/-- The sidecar file can be opened and locked, the operation renames a new text into
place, and then fails. -/
structure FailsAfterRename (serde : Serde) (faults : Faults) (call : FileCall) (now : DateTime)
    (disk : Disk) : Prop where
  opened : faults.error .openLockFile = none
  locked : faults.error .lockExclusive = none
  renames : RenamesThenFails serde call.store.hasParent faults call.op now disk.vault

/-- A call that reports an error has left the vault file as it was if and only if it
does not rename a new text into place and then fail to set its permissions. -/
theorem failed_call_unchanged_iff (serde : Serde) (faults : Faults) (call : FileCall) (tid : Nat)
    (now : DateTime) (disk : Disk) :
    ∃ result disk', call.attempt serde faults tid now disk = some (result, disk') ∧
      ((result.Failed → disk'.vault = disk.vault) ↔ ¬ FailsAfterRename serde faults call now disk) := by
  by_cases sidecar : faults.error .openLockFile = none ∧ faults.error .lockExclusive = none
  · obtain ⟨opened, locked⟩ := sidecar
    obtain ⟨inside, sameDisk, attempts⟩ :=
      @attempt_locked serde faults tid now call disk opened locked
    obtain ⟨answer, closed, ran, unchanged_iff⟩ :=
      @transact_faulty serde faults tid call.store.hasParent call.op now inside
    rw [sameDisk] at unchanged_iff
    refine ⟨_, _, attempts answer closed ran, unchanged_iff.trans (not_congr ?_)⟩
    exact ⟨fun renames => ⟨opened, locked, renames⟩, FailsAfterRename.renames⟩
  · obtain ⟨result, refused⟩ := @attempt_refused serde faults tid now call disk sidecar
    refine ⟨result, disk, refused, iff_of_true (fun _ => rfl) ?_⟩
    exact fun late => sidecar ⟨late.opened, late.locked⟩

def Faults.only (op : FileOp) (message : String) : Faults where
  error other := if other = op then some message else none
  partialLength := 0

/-- An insert that cannot set the permissions reports an error, and its record is in the
file. -/
theorem insert_attempt_late {disk : Disk} (empty : Holds .concrete disk ∅) (tid : Nat) (record : StoredRecord) :
    ∃ result disk', (FileCall.mk ⟨true, 0⟩ (.insert (.replicate 16 0) record)).attempt
        .concrete (.only .setPermissions "Operation not permitted (os error 1)") tid .epoch disk =
          some (result, disk') ∧
      result.Failed ∧ Holds .concrete disk' ((∅ : Contents).insert (.replicate 16 0) record) := by
  obtain ⟨bytes, state, vault, parsed, mirrors⟩ := empty.parses
  let next : DiskState := state.insert (Uuid.hyphenated (.replicate 16 0)) record
  obtain ⟨text, written, readBack⟩ := DiskState.readsBack Serde.concrete_readsBack next
  obtain ⟨inside, sameDisk, attempts⟩ := @attempt_locked .concrete
    (.only .setPermissions "Operation not permitted (os error 1)") tid .epoch
    ⟨⟨true, 0⟩, .insert (.replicate 16 0) record⟩ disk rfl rfl
  have renames : Renames .concrete true (.only .setPermissions "Operation not permitted (os error 1)") next text :=
    ⟨rfl, written, rfl, rfl, rfl, rfl⟩
  obtain ⟨closed, wrote, replaced⟩ := @writeAtomic_renames _ _ tid _ _ _ renames inside
  have read : (LocalFileStore.readState .concrete).run.run
      (Faults.respond (.only .setPermissions "Operation not permitted (os error 1)") tid) inside =
        some (.ok state, inside) := by
    have answered : Faults.respond (.only .setPermissions "Operation not permitted (os error 1)") tid inside
        (.storage .read) = some (.ok bytes, inside) := by
      rw [respond_healthy rfl]
      simp only [FileState.respond, Disk.apply, sameDisk, vault, Option.map_some]
      rw [← sameDisk]
    unfold LocalFileStore.readState
    rw [run_ok_bind (FileM.run_io (FileM.run_storage answered)), FileM.run_json, parsed]
    rfl
  refine ⟨_, closed.disk, attempts (.error (.io "Operation not permitted (os error 1)")) closed ?_, ⟨_, rfl⟩,
    text, next, replaced, readBack, mirrors.insert Uuid.hyphenated_injective _ _⟩
  unfold transact
  rw [run_bind_of_eq read]
  simp only [transition, BackendOp.rewrite]
  rw [run_bind_of_eq wrote]
  rfl

/-- An insert that cannot set the permissions reports an error, and has changed the
file. -/
theorem failed_insert_changes :
    ∃ result disk', (FileCall.mk ⟨true, 0⟩ (.insert (.replicate 16 0) ⟨⟨[], []⟩, .epoch, none⟩)).attempt
        .concrete (.only .setPermissions "Operation not permitted (os error 1)") 0 .epoch
        ⟨some (Json.toBytes (Json.print [])), fun _ => none⟩ = some (result, disk') ∧
      result.Failed ∧ disk'.vault ≠ some (Json.toBytes (Json.print [])) := by
  have empty (disk : Disk) (vault : disk.vault = some (Json.toBytes (Json.print []))) : Holds .concrete disk ∅ :=
    ⟨_, ∅, vault, DiskState.fromSlice_concrete_empty, .empty⟩
  obtain ⟨result, disk', ran, failed, holds⟩ := insert_attempt_late
    (empty ⟨some (Json.toBytes (Json.print [])), fun _ => none⟩ rfl) 0 ⟨⟨[], []⟩, .epoch, none⟩
  refine ⟨result, disk', ran, failed, fun same => ?_⟩
  exact Std.ExtTreeMap.insert_ne_empty (holds.unique (empty disk' same))

end TariVault
