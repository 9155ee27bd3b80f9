import TariVault.Storage.FileHistories

namespace TariVault

open Program TariVault.System

/-! # Opening a store while others use it

Opening looks whether the vault file exists and, if not, renames an empty one into
place, without the sidecar lock. Between the two steps another process can open the
store and insert.
-/

inductive FileTask where
  | new (hasParent : Bool)
  | operate (call : FileCall)

inductive TaskResult where
  | opened (result : Except StorageError Unit)
  | answered (result : BackendResult)

variable (serde : Serde)

def FileTask.code : FileTask → Host FileOp.Answer TaskResult
  | .new hasParent => .opened <$> (LocalFileStore.new serde hasParent).run
  | .operate call => .answered <$> call.code serde

def Unlocked (op : HostOp FileOp) : Prop :=
  op ≠ .storage .lockExclusive ∧ op ≠ .storage .unlock ∧ op ≠ .storage .read

theorem Unlocked.of_outside {op : HostOp FileOp} (outside : Outside op) : Unlocked op := by
  refine ⟨?_, ?_, ?_⟩ <;> intro equal <;> subst equal <;> exact outside

namespace FileTask

/-- An open never gets to the lock. -/
def before : FileTask → Host FileOp.Answer (Except TaskResult (FileCall × Option DateTime))
  | .new hasParent => (fun result => .error (.opened result)) <$> (LocalFileStore.new serde hasParent).run
  | .operate call =>
      (fun reached =>
        match reached with
        | .ok captured => .ok (call, captured)
        | .error result => .error (.answered result)) <$> call.before

def body (captured : FileCall × Option DateTime) : Host FileOp.Answer (FileCall × BackendResult) :=
  (captured.1, ·) <$> captured.1.closure serde captured.2

def after (outcome : FileCall × BackendResult) : Host FileOp.Answer TaskResult :=
  .answered <$> outcome.1.finish outcome.2

def onEnter (captured : FileCall × Option DateTime) (locked : Except String Unit) :
    Host FileOp.Answer TaskResult :=
  .answered <$> captured.1.onEnter serde captured.2 locked

theorem code_eq (task : FileTask) : task.code serde =
    task.before serde >>= entering (.storage .lockExclusive) (onEnter serde) := by
  cases task with
  | new hasParent =>
      simp only [code, before, map_eq_pure_bind, bind_assoc, pure_bind]
      rfl
  | operate call =>
      simp only [code, before, FileCall.code_eq, map_eq_pure_bind, bind_assoc, pure_bind]
      refine congrArg (call.before >>= ·) (funext fun reached => ?_)
      cases reached <;> rfl

theorem onEnter_ok (captured : FileCall × Option DateTime) :
    onEnter serde captured (.ok ()) = body serde captured >>= fun outcome =>
      .step (.storage .unlock) fun _ => after outcome := by
  simp only [onEnter, FileCall.onEnter, body, after, map_eq_pure_bind, bind_assoc, pure_bind]
  rfl

variable {serde}

theorem Writing.unlocked {op : HostOp FileOp} (writing : Writing op) : Unlocked op := by
  refine ⟨?_, ?_, ?_⟩ <;> intro equal <;> subst equal <;> exact writing

theorem new_within (hasParent : Bool) :
    (LocalFileStore.new serde hasParent).run.Within Unlocked := by
  have creates : (do
      let found ← ExceptT.lift (Host.storage FileOp.pathExists)
      if found then pure () else writeAtomic serde hasParent ∅ : FileM Unit).run.Within Unlocked := by
    refine .step (by simp [Unlocked]) fun found => ?_
    cases found with
    | true => exact .done _
    | false => exact (FileCall.writeAtomic_within ..).mono fun _ => Writing.unlocked
  unfold LocalFileStore.new
  cases hasParent with
  | false => exact creates
  | true =>
      refine .step (by simp [Unlocked]) fun created => ?_
      cases created with
      | error message => exact .done _
      | ok created => exact creates

theorem before_within (task : FileTask) : (task.before serde).Within Unlocked := by
  cases task with
  | new hasParent => exact (new_within hasParent).map _
  | operate call => exact ((FileCall.before_within call).mono fun _ => Unlocked.of_outside).map _

theorem after_within (outcome : FileCall × BackendResult) : (after outcome).Within Unlocked :=
  Within.map _ (.step (by simp [Unlocked]) fun _ => .done _)

/-- The sidecar lock, with opens that never take it. -/
def locking (serde : Serde) : Locking (fileSystem (FileTask.code serde)) where
  Captured := FileCall × Option DateTime
  Outcome := FileCall × BackendResult
  enter := .storage .lockExclusive
  granted := .ok ()
  leave := .storage .unlock
  outer := Unlocked
  inner := OnFiles
  before := before serde
  body _ := body serde
  after _ := after
  onEnter _ := onEnter serde
  holder := FileState.sidecar
  code_eq := code_eq serde
  onEnter_granted _ captured := onEnter_ok serde captured
  before_within := before_within
  body_within _ captured := (FileCall.closure_within captured.1 captured.2).map _
  after_within _ := after_within
  enter_not_outer unlocked := unlocked.1 rfl
  enter_not_inner := OnFiles.not_lockExclusive
  enter_ne_leave := FileOp.lockExclusive_ne_unlock
  outer_holder unlocked performed := FileState.respond_sidecar unlocked.1 unlocked.2.1 performed
  enter_holder performed := by
    obtain ⟨granted, free, held, _⟩ := FileState.respond_lockExclusive performed
    exact ⟨granted, free, held⟩
  leave_holder performed := by
    cases performed
    rfl
  inner_holder onFiles performed := (FileState.respond_onFiles onFiles performed).1
  drift_holder := by
    intro state env _ equal
    subst equal
    cases env <;> rfl

end FileTask

variable {serde}

abbrev taskSystem (serde : Serde) := fileSystem (FileTask.code serde)

/-- What the vault file says is stored: nothing if it is missing or does not parse. -/
def Disk.records (serde : Serde) (disk : Disk) : DiskState :=
  match disk.vault with
  | none => ∅
  | some bytes =>
      match DiskState.fromSlice serde bytes with
      | .ok state => state
      | .error _ => ∅

/-- An open renames its empty file into place only while nothing is stored. -/
def OpensEmpty (config : Config (taskSystem serde)) : Label (taskSystem serde) → Prop
  | .act tid event => event.op = .storage .persist →
      ∀ thread hasParent, config.threads tid = some thread → thread.call = .new hasParent →
        config.shared.disk.records serde = ∅
  | _ => True

section Runs

variable {vault : Option Bytes} {clock : DateTime} {labels : List (Label (taskSystem serde))}
  {config last : Config (taskSystem serde)} {label : Label (taskSystem serde)}
  {ok : Config (taskSystem serde) → Label (taskSystem serde) → Prop}

/-- Any vault file or none, and nothing running. -/
abbrev taskStart (serde : Serde) (vault : Option Bytes) (clock : DateTime) : Config (taskSystem serde) :=
  Config.start (FileState.idle ⟨vault, fun _ => none⟩ clock)

theorem past_answered (run : RunWhere ok (taskStart serde vault clock) labels config) {tid : Nat}
    {thread : Thread (taskSystem serde)} (found : config.threads tid = some thread) :
    ∀ event ∈ thread.past, FileEvent.Answered event := fun _ did => by
  obtain ⟨state, state', performed⟩ := run.did_performed found did
  exact ⟨tid, state, state', performed⟩

/-- A call's temporary file is what its history made it. -/
structure TempsFollow (config : Config (taskSystem serde)) : Prop where
  running : ∀ tid thread, config.threads tid = some thread →
    config.shared.disk.temps tid = tempOf thread.past
  unused : ∀ tid, config.threads tid = none → config.shared.disk.temps tid = none

theorem TempsFollow.step (follow : TempsFollow config) (step : Step config label last) :
    TempsFollow last := by
  cases step with
  | @invoke tid call free =>
      constructor
      · intro other thread found
        rcases find_update found with ⟨rfl, rfl⟩ | ⟨same, found⟩
        · exact follow.unused _ free
        · exact follow.running other thread found
      · intro other unused
        by_cases same : other = tid
        · subst same
          simp only [Function.update_self] at unused
          contradiction
        · simp only [Function.update_of_ne same] at unused
          exact follow.unused other unused
  | @act tid call past op next answer shared running performed =>
      have temps := respond_temps performed (follow.running tid _ running)
      constructor
      · intro other thread found
        rcases find_update found with ⟨rfl, rfl⟩ | ⟨same, found⟩
        · simp only [temps, Function.update_self]
        · simp only [temps, Function.update_of_ne same]
          exact follow.running other thread found
      · intro other unused
        by_cases same : other = tid
        · subst same
          simp only [Function.update_self] at unused
          contradiction
        · simp only [Function.update_of_ne same] at unused
          simp only [temps, Function.update_of_ne same]
          exact follow.unused other unused
  | @drift env shared changed =>
      have same : shared.disk = config.shared.disk := by
        rw [changed]
        cases env <;> rfl
      exact ⟨fun tid thread found => by rw [same]; exact follow.running tid thread found,
        fun tid unused => by rw [same]; exact follow.unused tid unused⟩

theorem tempsFollow (run : RunWhere ok (taskStart serde vault clock) labels config) :
    TempsFollow config := by
  induction run with
  | refl => exact ⟨fun tid thread found => (by cases found), fun _ _ => rfl⟩
  | snoc _ _ step ih => exact ih.step step

/-- Without the lock an operation neither reads nor renames. -/
theorem outside_of_unheld {task : FileTask} {call : FileCall} {past : List FileEvent}
    {op : HostOp FileOp} {next : HostOp.Answer FileOp.Answer op → Host FileOp.Answer TaskResult}
    (operates : task = .operate call)
    (standing : (FileTask.locking serde).Waiting ⟨task, past, .step op next⟩ ∨
      ∃ captured outcome, (FileTask.locking serde).Left ⟨task, past, .step op next⟩ captured outcome) :
    Outside op ∨ op = .storage .lockExclusive := by
  subst operates
  rcases standing with ⟨middle, leads, rest⟩ | ⟨captured, outcome, front, back, answer, tail, _, _, _, leads⟩
  · have within : (FileTask.before serde (.operate call)).Within Outside :=
      (FileCall.before_within call).map _
    simp only at leads rest
    cases middle with
    | step op' next' =>
        injection rest with same
        subst same
        exact .inl (within.leads leads).2.head
    | done reached =>
        cases reached with
        | error result => contradiction
        | ok captured =>
            injection rest with same
            exact .inr same
  · have within : (FileTask.after outcome).Within Outside := Within.map _ (.step trivial fun _ => .done _)
    exact .inl (within.leads leads).2.head

/-- What a call about to rename has done: an open has prepared the empty state, an
operation holds the lock and has prepared what it makes of the state it read. -/
theorem about_to_rename (run : RunWhere ok (taskStart serde vault clock) labels config) {tid : Nat}
    {task : FileTask} {past : List FileEvent}
    {next : Except String Unit → Host FileOp.Answer TaskResult}
    (running : config.threads tid = some ⟨task, past, .step (.storage .persist) next⟩) :
    (∀ event ∈ past, event.Quiet) ∧ ∃ text, config.shared.disk.temps tid = some text ∧
      ((∃ hasParent, task = .new hasParent) ∧ (∅ : DiskState).toVecPretty serde = .ok text ∨
        ∃ call now, task = .operate call ∧ config.shared.sidecar = some tid ∧
          Captures call.op now past ∧ Rewrites serde call.op now past text) := by
  have answered := past_answered run running
  have leads := (run.history running).1
  have temp := (tempsFollow run).running tid _ running
  simp only at answered leads temp
  have quiet_all {front : List FileEvent} (quiet : ∀ event ∈ front, event.Quiet) (text : Bytes) :
      ∀ event ∈ front ++ filling text, event.Quiet := by
    intro event member
    rcases List.mem_append.mp member with old | new
    · exact quiet event old
    · exact RenameStage.quiet_filling text event new
  cases task with
  | new hasParent =>
      obtain ⟨middle, inside, same⟩ := leads.map_inv
      cases middle with
      | done result => contradiction
      | step op' next' =>
          injection same with sameOp
          subst sameOp
          cases new_stage inside with
          | before _ elsewhere _ => exact absurd rfl (elsewhere next')
          | @about front text _ quiet written =>
              rw [tempOf_filling written.1] at temp
              exact ⟨quiet_all quiet text, text, temp, .inl ⟨⟨hasParent, rfl⟩, written.2.2⟩⟩
          | after _ _ _ keeping _ => exact absurd rfl keeping.head
  | operate call =>
      have held : config.shared.sidecar = some tid := by
        by_contra unheld
        have standing := ((FileTask.locking serde).exclusive run rfl).others tid _ running unheld
        rcases outside_of_unheld rfl standing with outside | same
        · exact outside
        · contradiction
      obtain ⟨middle, inside, same⟩ := leads.map_inv
      cases middle with
      | done result => contradiction
      | step op' next' =>
          injection same with sameOp
          subst sameOp
          cases call_stage inside fun event member => (answered event member).tolerated with
          | before _ elsewhere _ => exact absurd rfl (elsewhere next')
          | @about front text _ quiet written =>
              obtain ⟨created, now, captures, rewrites⟩ := written
              rw [tempOf_filling created] at temp
              exact ⟨quiet_all quiet text, text, temp, .inr ⟨call, now, rfl, held,
                fun sweep => List.mem_append_left _ (captures sweep),
                rewrites.mono (List.subset_append_left ..)⟩⟩
          | after _ _ _ keeping _ => exact absurd rfl keeping.head

theorem records_of_vault {disk : Disk} {bytes : Bytes} {state : DiskState} (vault : disk.vault = some bytes)
    (parsed : DiskState.fromSlice serde bytes = .ok state) : disk.records serde = state := by
  simp only [Disk.records, vault, parsed]

/-- What a rename leaves in the vault file. -/
theorem renames (readsBack : serde.ReadsBack)
    (run : RunWhere ok (taskStart serde vault clock) labels config) {tid : Nat} {task : FileTask}
    {past : List FileEvent} {next : Except String Unit → Host FileOp.Answer TaskResult}
    (running : config.threads tid = some ⟨task, past, .step (.storage .persist) next⟩)
    {result : Except String Unit} {shared : FileState}
    (performed : config.shared.respond tid (.storage .persist) = some (result, shared)) :
    (∀ event ∈ past, event.Quiet) ∧ result = .ok () ∧
      ((∃ hasParent, task = .new hasParent) ∧ shared.disk.records serde = ∅ ∨
        ∃ call now bytes state, task = .operate call ∧ config.shared.sidecar = some tid ∧
          Captures call.op now past ∧ (⟨.storage .read, .ok bytes⟩ : FileEvent) ∈ past ∧
          DiskState.fromSlice serde bytes = .ok state ∧
          call.op.rewrite now state = some (shared.disk.records serde)) := by
  obtain ⟨quiet, text, temp, standing⟩ := about_to_rename run running
  obtain ⟨text', temp', rfl, replaced⟩ := FileState.respond_persist performed
  rw [temp, Option.some.injEq] at temp'
  subst temp'
  refine ⟨quiet, rfl, ?_⟩
  rcases standing with ⟨opens, serialized⟩ | ⟨call, now, operates, held, captures, bytes, state, next,
    read, parsed, rewritten, serialized⟩
  · exact .inl ⟨opens, records_of_vault replaced (DiskState.fromSlice_of_toVecPretty readsBack serialized)⟩
  · rw [← records_of_vault replaced (DiskState.fromSlice_of_toVecPretty readsBack serialized)] at rewritten
    exact .inr ⟨call, now, bytes, state, operates, held, captures, read, parsed, rewritten⟩

theorem records_of_same_vault {disk disk' : Disk} (same : disk'.vault = disk.vault) :
    disk'.records serde = disk.records serde := by
  simp only [Disk.records, same]

/-- Until it renames, what the holder has read is what the vault file holds. -/
def Current (config : Config (taskSystem serde)) : Prop :=
  ∀ tid thread bytes state, config.shared.sidecar = some tid → config.threads tid = some thread →
    (⟨.storage .read, .ok bytes⟩ : FileEvent) ∈ thread.past →
    (∀ event ∈ thread.past, FileEvent.Quiet event) →
    DiskState.fromSlice serde bytes = .ok state → config.shared.disk.records serde = state

theorem waiting_not_read {thread : Thread (taskSystem serde)} {bytes : Bytes}
    (waiting : (FileTask.locking serde).Waiting thread) :
    (⟨.storage .read, .ok bytes⟩ : FileEvent) ∉ thread.past := by
  intro read
  obtain ⟨middle, leads, _⟩ := waiting
  exact (((FileTask.before_within _).leads leads).1 _ read).2.2 rfl

theorem records_of_unheld (readsBack : serde.ReadsBack)
    (run : RunWhere OpensEmpty (taskStart serde vault clock) labels config) {tid : Nat}
    {task : FileTask} {past : List FileEvent} {op : HostOp FileOp}
    {next : HostOp.Answer FileOp.Answer op → Host FileOp.Answer TaskResult}
    {answer : HostOp.Answer FileOp.Answer op} {shared : FileState}
    (running : config.threads tid = some ⟨task, past, .step op next⟩)
    (performed : config.shared.respond tid op = some (answer, shared))
    (allowed : OpensEmpty config (.act tid ⟨op, answer⟩)) {holder : Nat}
    (held : config.shared.sidecar = some holder) (unheld : holder ≠ tid) :
    shared.disk.records serde = config.shared.disk.records serde := by
  by_cases renames_ : op = .storage .persist
  · subst renames_
    obtain ⟨_, _, ⟨⟨hasParent, opens⟩, emptied⟩ | ⟨_, _, _, _, _, heldHere, _⟩⟩ :=
      renames readsBack run running performed
    · rw [emptied, allowed rfl _ hasParent running opens]
    · rw [held, Option.some.injEq] at heldHere
      exact absurd heldHere unheld
  · exact records_of_same_vault (FileState.respond_vault renames_ performed)

theorem Current.step (current : Current config) (readsBack : serde.ReadsBack)
    (run : RunWhere OpensEmpty (taskStart serde vault clock) labels config)
    (allowed : OpensEmpty config label) (step : Step config label last) : Current last := by
  have exclusive := (FileTask.locking serde).exclusive run rfl
  cases step with
  | @invoke tid call free =>
      intro other thread bytes state held found read quiet parsed
      rcases find_update found with ⟨rfl, rfl⟩ | ⟨same, found⟩
      · contradiction
      · exact current other thread bytes state held found read quiet parsed
  | @drift env shared changed =>
      have sameFiles : shared.disk = config.shared.disk ∧ shared.sidecar = config.shared.sidecar := by
        rw [changed]
        cases env <;> exact ⟨rfl, rfl⟩
      intro tid thread bytes state held found read quiet parsed
      simp only [sameFiles.1, sameFiles.2] at held ⊢
      exact current tid thread bytes state held found read quiet parsed
  | @act tid task past op next answer shared running performed =>
      intro other thread bytes state held found read quiet parsed
      rcases find_update found with ⟨rfl, rfl⟩ | ⟨same, found⟩
      · have keeping : op ≠ .storage .persist := by
          intro same
          subst same
          obtain ⟨_, _, rfl, _⟩ := FileState.respond_persist performed
          exact quiet renamed (by simp [renamed]) rfl
        have sameVault := FileState.respond_vault keeping performed
        rw [records_of_same_vault sameVault]
        rcases List.mem_append.mp read with old | new
        · -- It read before, so it held the lock before.
          have heldBefore : config.shared.sidecar = some other := by
            by_contra unheld
            rcases exclusive.others other _ running unheld with waiting | ⟨captured, outcome, left⟩
            · exact waiting_not_read waiting old
            · have unlocked := (left.advance answer).1
              have kept := FileState.respond_sidecar unlocked.1 unlocked.2.1 performed
              exact unheld (kept.symm.trans held)
          exact current other _ bytes state heldBefore running old
            (fun event member => quiet event (List.mem_append_left _ member)) parsed
        · cases List.mem_singleton.mp new
          have stored : config.shared.disk.vault = some bytes := by
            cases present : config.shared.disk.vault with
            | none => simp [FileState.respond, Disk.apply, present] at performed
            | some stored =>
                simp only [FileState.respond, Disk.apply, present, Option.map_some, Option.some.injEq,
                  Prod.mk.injEq, Except.ok.injEq] at performed
                rw [performed.1]
          exact records_of_vault stored parsed
      · have heldBefore : config.shared.sidecar = some other := by
          by_cases heldHere : config.shared.sidecar = some tid
          · obtain ⟨before, captured, middle, foundBefore, inside⟩ := exclusive.held tid heldHere
            rw [running, Option.some.injEq] at foundBefore
            subst foundBefore
            rcases inside.advance answer with ⟨inner, _⟩ | ⟨rfl, _⟩
            · have kept := (FileTask.locking serde).inner_holder inner performed
              exact kept.symm.trans held
            · have released := (FileTask.locking serde).leave_holder performed
              exact absurd (released.symm.trans held) (by simp)
          · rcases exclusive.others tid _ running heldHere with waiting | ⟨captured, outcome, left⟩
            · rcases waiting.advance performed with ⟨unlocked, _⟩ | ⟨_, _, heldNow, _⟩
              · exact (FileState.respond_sidecar unlocked.1 unlocked.2.1 performed).symm.trans held
              · exact absurd (Option.some.inj (held.symm.trans heldNow)) same
            · have unlocked := (left.advance answer).1
              exact (FileState.respond_sidecar unlocked.1 unlocked.2.1 performed).symm.trans held
        rw [records_of_unheld readsBack run running performed allowed heldBefore same]
        exact current other thread bytes state heldBefore found read quiet parsed

theorem current (readsBack : serde.ReadsBack)
    (run : RunWhere OpensEmpty (taskStart serde vault clock) labels config) : Current config := by
  induction run with
  | refl =>
      intro tid thread bytes state held
      contradiction
  | snoc run allowed step ih => exact ih.step readsBack run allowed step

theorem operate_renames (readsBack : serde.ReadsBack)
    (run : RunWhere OpensEmpty (taskStart serde vault clock) labels config) {tid : Nat}
    {call : FileCall} {past : List FileEvent}
    {next : Except String Unit → Host FileOp.Answer TaskResult}
    (running : config.threads tid = some ⟨.operate call, past, .step (.storage .persist) next⟩)
    {result : Except String Unit} {shared : FileState}
    (performed : config.shared.respond tid (.storage .persist) = some (result, shared)) :
    ∃ now, Captures call.op now past ∧
      call.op.rewrite now (config.shared.disk.records serde) = some (shared.disk.records serde) := by
  obtain ⟨quiet, _, ⟨⟨_, impossible⟩, _⟩ | ⟨_, now, bytes, state, operates, held, captures, read, parsed,
    rewritten⟩⟩ := renames readsBack run running performed
  · contradiction
  · cases operates
    rw [current readsBack run tid _ bytes state held running read quiet parsed]
    exact ⟨now, captures, rewritten⟩

theorem records_unchanged (readsBack : serde.ReadsBack)
    (run : RunWhere OpensEmpty (taskStart serde vault clock) labels config)
    (allowed : OpensEmpty config label) (step : Step config label last)
    (noOperation : ∀ tid thread call, label = .act tid renamed → config.threads tid = some thread →
      thread.call ≠ .operate call) :
    last.shared.disk.records serde = config.shared.disk.records serde := by
  cases step with
  | invoke free => rfl
  | @drift env shared changed =>
      refine records_of_same_vault ?_
      rw [changed]
      cases env <;> rfl
  | @act tid task past op next answer shared running performed =>
      by_cases renames_ : op = .storage .persist
      · subst renames_
        obtain ⟨_, rfl, ⟨⟨hasParent, opens⟩, emptied⟩ | ⟨call, _, _, _, operates, _⟩⟩ :=
          renames readsBack run running performed
        · simp only [emptied]
          exact (allowed rfl _ hasParent running opens).symm
        · exact absurd operates (noOperation tid _ call rfl running)
      · exact records_of_same_vault (FileState.respond_vault renames_ performed)

end Runs

section Alone

theorem insert_task_run (readsBack : serde.ReadsBack) {disk : Disk} {contents : Contents}
    (holds : Holds serde disk contents) (tid mutex : Nat) (clock : DateTime) (recordId : RecordId)
    (record : StoredRecord) :
    ∃ disk', ((FileTask.operate ⟨⟨true, mutex⟩, .insert recordId record⟩).code serde).run
          (FileState.respond tid) (.idle disk clock) =
        some (.answered ⟨.insert recordId record, .ok ()⟩, .idle disk' clock) ∧
      Holds serde disk' (contents.insert recordId record) := by
  obtain ⟨disk', ran, left⟩ := @FileCall.code_refines _ ⟨⟨true, mutex⟩, .insert recordId record⟩ tid clock
    _ _ readsBack rfl holds
  refine ⟨disk', ?_, left⟩
  rw [FileTask.code, run_map, ran]
  rfl

theorem create_run {text : Bytes} (serialized : (∅ : DiskState).toVecPretty serde = .ok text)
    (tid : Nat) (state : FileState) :
    ∃ shared, (TaskResult.opened <$> (writeAtomic serde true ∅).run).run (FileState.respond tid) state =
        some (.opened (.ok ()), shared) ∧ shared.disk.vault = some text ∧
      shared = { state with disk := shared.disk } := by
  have within : (writeAtomic serde true ∅).run.Within OnFiles :=
    (FileCall.writeAtomic_within ..).mono fun _ => Writing.onFiles
  refine ⟨{ state with disk := { state.disk.setTemp tid none with vault := some text } }, ?_, rfl, rfl⟩
  rw [run_map, FileState.run_onFiles within, writeAtomic_run serialized]
  rfl

/-- An open of a path without a vault file creates the empty one. -/
theorem open_task_run {text : Bytes} (serialized : (∅ : DiskState).toVecPretty serde = .ok text)
    (tid : Nat) {disk : Disk} (missing : disk.vault = none) (clock : DateTime) :
    ∃ disk', ((FileTask.new true).code serde).run (FileState.respond tid) (.idle disk clock) =
        some (.opened (.ok ()), .idle disk' clock) ∧ disk'.vault = some text := by
  obtain ⟨created, ran, present, same⟩ := create_run serialized tid (.idle disk clock)
  have looked : (FileState.idle disk clock).respond tid (.storage .pathExists) =
      some (false, .idle disk clock) := by
    simp [FileState.respond, Disk.apply, FileState.idle, missing]
  have idle : created = .idle created.disk clock := same
  have made : (FileState.idle disk clock).respond tid (.storage .createDirAll) =
      some (.ok (), .idle disk clock) := rfl
  refine ⟨created.disk, ?_, present⟩
  rw [← idle, ← ran]
  exact (run_step made).trans (run_step looked)

/-- An open of a path with a vault file leaves it alone. -/
theorem reopen_task_run {bytes : Bytes} (tid : Nat) {disk : Disk} (present : disk.vault = some bytes)
    (clock : DateTime) : ((FileTask.new true).code serde).run (FileState.respond tid) (.idle disk clock) =
      some (.opened (.ok ()), .idle disk clock) := by
  have made : (FileState.idle disk clock).respond tid (.storage .createDirAll) =
      some (.ok (), .idle disk clock) := rfl
  have looked : (FileState.idle disk clock).respond tid (.storage .pathExists) =
      some (true, .idle disk clock) := by
    simp [FileState.respond, Disk.apply, FileState.idle, present]
  exact (run_step made).trans (run_step looked)

end Alone

end TariVault
