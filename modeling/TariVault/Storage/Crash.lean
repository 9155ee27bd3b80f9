import TariVault.Storage.Failure
import TariVault.Storage.Opening

namespace TariVault

open Program TariVault.System

/-! # A process that is killed

One process opens the store, performs one call after another, and can be killed
between any two steps. A kill releases its locks, leaves its files as they are, and
is followed by opening the store again. Every step may also fail.
-/

variable {serde : Serde}

/-- The files, whether the store is open, the number of the current call, and that
call if there is one. -/
structure Process (serde : Serde) where
  files : FileState
  opened : Bool
  number : Nat
  current : Option (Thread (taskSystem serde))

/-- How a call ended. -/
inductive Ended (serde : Serde) where
  | returned (thread : Thread (taskSystem serde)) (result : TaskResult)
  | killed (thread : Thread (taskSystem serde))

def FileState.released (state : FileState) : FileState := .idle state.disk state.clock

/-- After this result the store is open. -/
def TaskResult.opens : TaskResult → Bool
  | .opened (.ok ()) => true
  | _ => false

def FileTask.thread (serde : Serde) (task : FileTask) : Thread (taskSystem serde) :=
  ⟨task, [], task.code serde⟩

/-- What call `number` may get for a step: the answer of a file system in which nothing
fails, or a failure with a message. A file that cannot be looked at seems missing. -/
inductive FileState.May (number : Nat) (state : FileState) : FileEvent → FileState → Prop where
  | answers {op : HostOp FileOp} {answer : HostOp.Answer FileOp.Answer op} {state'}
      (performed : state.respond number op = some (answer, state')) : May number state ⟨op, answer⟩ state'
  | fails {op : FileOp} {answer : op.Answer} {message : String} (length : Nat)
      (failed : op.failed message = some answer) : May number state ⟨.storage op, answer⟩
        { state with disk := state.disk.interrupted number length op }
  | overlooks : May number state ⟨.storage .pathExists, false⟩ state

/-- What a process does in a step. -/
inductive ProcessLabel (serde : Serde) where
  | begins (task : FileTask)
  | act (event : FileEvent)
  | ends (ended : Ended serde)
  | killIdle
  | tick (now : DateTime)

inductive ProcessStep (store : LocalFileStore) :
    Process serde → ProcessLabel serde → Process serde → Prop where
  | open_ {files number} : ProcessStep store ⟨files, false, number, none⟩ (.begins (.new store.hasParent))
      ⟨files, false, number + 1, some (FileTask.thread serde (.new store.hasParent))⟩
  | operate {files number} (op : BackendOp) :
      ProcessStep store ⟨files, true, number, none⟩ (.begins (.operate ⟨store, op⟩))
        ⟨files, true, number + 1, some (FileTask.thread serde (.operate ⟨store, op⟩))⟩
  | act {files files' : FileState} {opened number task past} {op : HostOp FileOp} {next}
      {answer : HostOp.Answer FileOp.Answer op} (may : files.May number ⟨op, answer⟩ files') :
      ProcessStep store ⟨files, opened, number, some ⟨task, past, .step op next⟩⟩ (.act ⟨op, answer⟩)
        ⟨files', opened, number, some ⟨task, past ++ [⟨op, answer⟩], next answer⟩⟩
  | returns {files opened number task past result} : ProcessStep store
      ⟨files, opened, number, some ⟨task, past, .done result⟩⟩
      (.ends (.returned ⟨task, past, .done result⟩ result)) ⟨files, opened || result.opens, number, none⟩
  | kill {files opened number thread} : ProcessStep store ⟨files, opened, number, some thread⟩
      (.ends (.killed thread)) ⟨files.released, false, number, none⟩
  | killIdle {files opened number} : ProcessStep store ⟨files, opened, number, none⟩ .killIdle
      ⟨files.released, false, number, none⟩
  | tick {files opened number current} (now : DateTime) :
      ProcessStep store ⟨files, opened, number, current⟩ (.tick now)
        ⟨{ files with clock := now }, opened, number, current⟩

/-- Runs whose every step satisfies `ok`. -/
inductive ProcessRun (ok : Process serde → ProcessLabel serde → Prop) (store : LocalFileStore)
    (first : Process serde) : List (ProcessLabel serde) → Process serde → Prop where
  | refl : ProcessRun ok store first [] first
  | snoc {labels process label last} (run : ProcessRun ok store first labels process)
      (allowed : ok process label) (step : ProcessStep store process label last) :
      ProcessRun ok store first (labels ++ [label]) last

/-- The calls that ended, in order, and how. -/
def endings (labels : List (ProcessLabel serde)) : List (Ended serde) :=
  labels.filterMap fun label =>
    match label with
    | .ends ended => some ended
    | _ => none

def Process.start (vault : Option Bytes) (clock : DateTime) : Process serde :=
  ⟨.idle ⟨vault, fun _ => none⟩ clock, false, 0, none⟩

/-- The call in flight, as if it were killed now. -/
def Process.inFlight (process : Process serde) : List (Ended serde) :=
  match process.current with
  | some thread => [.killed thread]
  | none => []

def FileTask.Tolerates : FileTask → FileEvent → Prop
  | .new _, _ => True
  | .operate _, event => event.Tolerated

/-- No operation fails to restrict the permissions of the file that it has renamed, and
no vault file seems missing. -/
def Process.Sound (process : Process serde) : ProcessLabel serde → Prop
  | .act event => (∀ thread, process.current = some thread → thread.call.Tolerates event) ∧
      (event = ⟨.storage .pathExists, false⟩ → process.files.disk.vault = none)
  | _ => True

/-- What an ended call has done to the contents: what it reports, or, if it was killed,
all or nothing. -/
inductive Effect : Ended serde → Contents → Contents → Prop where
  | opened {thread result contents} : Effect (.returned thread (.opened result)) contents contents
  | failed {thread contents} {result : BackendResult} (failed : result.Failed) :
      Effect (.returned thread (.answered result)) contents contents
  | succeeded {thread : Thread (taskSystem serde)} {call : FileCall} {result : BackendResult}
      {now : DateTime} {contents} (operates : thread.call = .operate call)
      (captures : Captures call.op now thread.past) (succeeded : ¬ result.Failed) :
      Effect (.returned thread (.answered result)) contents (contents.apply now call.op).2
  | nothing {thread contents} : Effect (.killed thread) contents contents
  | all {thread : Thread (taskSystem serde)} {call : FileCall} {now : DateTime} {contents}
      (operates : thread.call = .operate call) (captures : Captures call.op now thread.past) :
      Effect (.killed thread) contents (contents.apply now call.op).2

/-- The mutations that returned `Ok`, in order, and for every kill all or nothing of
the mutation in flight. -/
inductive Applied (initial : Contents) : List (Ended serde) → Contents → Prop where
  | nil : Applied initial [] initial
  | snoc {history contents contents' ended} (earlier : Applied initial history contents)
      (effect : Effect ended contents contents') : Applied initial (history ++ [ended]) contents'

/-- The vault file holds the contents, or is missing and there are none. -/
def Represents (serde : Serde) (disk : Disk) (contents : Contents) : Prop :=
  disk.vault = none ∧ contents = ∅ ∨ Holds serde disk contents

/-- A call that has not renamed: the file is as it found it. -/
structure Unrenamed (serde : Serde) (before : Contents) (thread : Thread (taskSystem serde)) (disk : Disk) : Prop where
  quiet : ∀ event ∈ thread.past, FileEvent.Quiet event
  represents : Represents serde disk before
  read : ∀ bytes, (⟨.storage .read, .ok bytes⟩ : FileEvent) ∈ thread.past → disk.vault = some bytes
  looked : (⟨.storage .pathExists, false⟩ : FileEvent) ∈ thread.past → disk.vault = none

/-- A call that has renamed: the file holds all it does. -/
structure Renamed (serde : Serde) (before : Contents) (thread : Thread (taskSystem serde)) (disk : Disk) : Prop where
  renamed : renamed ∈ thread.past
  holds : (∃ hasParent, thread.call = .new hasParent) ∧ Holds serde disk before ∨
    ∃ call now, thread.call = .operate call ∧ Captures call.op now thread.past ∧
      Holds serde disk (before.apply now call.op).2

/-- What is in the temporary file of a call that has created it, has written to it,
and has flushed it. -/
structure Filled (past : List FileEvent) (temp : Option Bytes) : Prop where
  created : past.getLast? = some createdTemp → temp = some []
  wrote : ∀ front text, front.getLast? = some createdTemp →
    past = front ++ [⟨.storage (.writeAll text), .ok ()⟩] → temp = some text
  flushed : ∀ front text, front.getLast? = some createdTemp → past = front ++ filling text → temp = some text

/-- A call in flight has followed its program, and has renamed or not. -/
structure Flying (serde : Serde) (before : Contents) (number : Nat) (thread : Thread (taskSystem serde))
    (disk : Disk) : Prop where
  leads : Leads (thread.call.code serde) thread.past thread.rest
  tolerated : ∀ event ∈ thread.past, thread.call.Tolerates event
  temp : Filled thread.past (disk.temps number)
  stands : Unrenamed serde before thread disk ∨ Renamed serde before thread disk

/-- What a task renames after which history. -/
def FileTask.Writes (serde : Serde) : FileTask → List FileEvent → Bytes → Prop
  | .new _, front, text => front.getLast? = some createdTemp ∧
      (⟨.storage .pathExists, false⟩ : FileEvent) ∈ front ∧ (∅ : DiskState).toVecPretty serde = .ok text
  | .operate call, front, text => front.getLast? = some createdTemp ∧
      ∃ now, Captures call.op now front ∧ Rewrites serde call.op now front text

/-- What a task can have returned without a rename. -/
def FileTask.Skips (serde : Serde) : FileTask → List FileEvent → TaskResult → Prop
  | .new _, _, result => ∃ opened, result = .opened opened
  | .operate call, events, result => ∃ answer, result = .answered answer ∧
      (answer.Failed ∨ ∃ now, Captures call.op now events ∧ Leaves serde call.op now events)

/-- What a task can have returned after its rename. -/
def FileTask.Lands : FileTask → TaskResult → Prop
  | .new _, result => ∃ opened, result = .opened opened
  | .operate _, result => ∃ answer, result = .answered answer ∧ ¬ answer.Failed

theorem task_stage {task : FileTask} {events : List FileEvent} {rest : Host FileOp.Answer TaskResult}
    (leads : Leads (task.code serde) events rest) (tolerated : ∀ event ∈ events, task.Tolerates event) :
    RenameStage (task.Skips serde) (task.Writes serde) task.Lands events rest := by
  cases task with
  | new hasParent =>
      obtain ⟨middle, inside, rfl⟩ := leads.map_inv
      refine (new_stage inside).map.mono ?_ (fun _ _ => id) ?_
      · intro _ holds
        obtain ⟨value, rfl, _⟩ := holds
        exact ⟨value, rfl⟩
      · intro _ holds
        obtain ⟨value, rfl, _⟩ := holds
        exact ⟨value, rfl⟩
  | operate call =>
      obtain ⟨middle, inside, rfl⟩ := leads.map_inv
      refine (call_stage inside tolerated).map.mono ?_ (fun _ _ => id) ?_
      · intro _ holds
        obtain ⟨value, rfl, _, skipped⟩ := holds
        exact ⟨value, rfl, skipped⟩
      · intro _ holds
        obtain ⟨value, rfl, _, landed⟩ := holds
        exact ⟨value, rfl, landed⟩

section Flight

variable {before initial : Contents} {number : Nat} {thread : Thread (taskSystem serde)}
  {disk disk' : Disk} {history : List (Ended serde)}

theorem Holds.of_vault {contents : Contents} (same : disk'.vault = disk.vault)
    (holds : Holds serde disk contents) : Holds serde disk' contents := by
  obtain ⟨bytes, state, vault, rest⟩ := holds.parses
  exact ⟨bytes, state, same.trans vault, rest⟩

theorem Represents.of_vault {contents : Contents} (same : disk'.vault = disk.vault)
    (represents : Represents serde disk contents) : Represents serde disk' contents := by
  rcases represents with ⟨missing, empty⟩ | holds
  · exact .inl ⟨same.trans missing, empty⟩
  · exact .inr (holds.of_vault same)

theorem Represents.unique {contents other : Contents} (represents : Represents serde disk contents)
    (holds : Holds serde disk other) : contents = other := by
  rcases represents with ⟨missing, _⟩ | holds'
  · obtain ⟨bytes, _, present, _⟩ := holds.parses
    rw [missing] at present
    contradiction
  · exact holds'.unique holds

/-- What an operation has read is the file it found. -/
theorem Unrenamed.holds (unrenamed : Unrenamed serde before thread disk) {bytes : Bytes} {state : DiskState}
    (read : (⟨.storage .read, .ok bytes⟩ : FileEvent) ∈ thread.past)
    (parsed : DiskState.fromSlice serde bytes = .ok state) : Mirrors Uuid.hyphenated id state before := by
  have vault := unrenamed.read bytes read
  rcases unrenamed.represents with ⟨missing, _⟩ | ⟨bytes', state', vault', parsed', mirrors⟩
  · rw [vault] at missing
    contradiction
  · rw [vault, Option.some.injEq] at vault'
    subst vault'
    rw [parsed, Except.ok.injEq] at parsed'
    exact parsed' ▸ mirrors

/-- The rename puts into place what the task makes of the contents. -/
theorem Unrenamed.renames (unrenamed : Unrenamed serde before thread disk) (readsBack : serde.ReadsBack)
    {front : List FileEvent} {text : Bytes} (included : front ⊆ thread.past)
    (writes : thread.call.Writes serde front text) (replaced : disk'.vault = some text) :
    (∃ hasParent, thread.call = .new hasParent) ∧ Holds serde disk' before ∨
      ∃ call now, thread.call = .operate call ∧ Captures call.op now thread.past ∧
        Holds serde disk' (before.apply now call.op).2 := by
  obtain ⟨task, past, rest⟩ := thread
  cases task with
  | new hasParent =>
      obtain ⟨_, absent, serialized⟩ := writes
      have missing := unrenamed.looked (included absent)
      rcases unrenamed.represents with ⟨_, rfl⟩ | ⟨bytes, _, vault, _⟩
      · exact .inl ⟨⟨hasParent, rfl⟩, text, ∅, replaced,
          DiskState.fromSlice_of_toVecPretty readsBack serialized, .empty⟩
      · rw [missing] at vault
        contradiction
  | operate call =>
      obtain ⟨_, now, captures, bytes, state, next, read, parsed, rewritten, serialized⟩ := writes
      have mirrors := @rewrite_mirrors _ now _ call.op (unrenamed.holds (included read) parsed)
      rw [rewritten] at mirrors
      exact .inr ⟨call, now, rfl, fun sweep => included (captures sweep), text, next, replaced,
        DiskState.fromSlice_of_toVecPretty readsBack serialized, mirrors⟩

section May

variable {state state' : FileState} {event : FileEvent}

/-- Only a rename that succeeds changes the vault file. -/
theorem FileState.May.vault (may : state.May number event state') (quiet : event.Quiet) :
    state'.disk.vault = state.disk.vault := by
  cases may with
  | @answers op answer _ performed =>
      refine FileState.respond_vault (fun renames => ?_) performed
      subst renames
      obtain ⟨_, _, rfl, _⟩ := FileState.respond_persist performed
      exact quiet rfl
  | fails length failed => exact Disk.interrupted_vault
  | overlooks => rfl

theorem FileState.May.renames (may : state.May number renamed state') :
    ∃ text, state.disk.temps number = some text ∧ state'.disk.vault = some text := by
  cases may with
  | answers performed =>
      obtain ⟨text, temp, _, replaced⟩ := FileState.respond_persist performed
      exact ⟨text, temp, replaced⟩
  | fails length failed => simp [FileOp.failed] at failed

theorem FileState.May.others (may : state.May number event state') {other : Nat} (different : other ≠ number) :
    state'.disk.temps other = state.disk.temps other := by
  cases may with
  | answers performed =>
      rcases FileState.respond_disk performed with ⟨same, _⟩ | ⟨_, _, _, applied⟩
      · rw [same]
      · rw [Disk.apply_temps applied, Function.update_of_ne different]
  | fails length failed => exact Disk.interrupted_temps different
  | overlooks => rfl

theorem FileState.May.reads {bytes : Bytes} (may : state.May number ⟨.storage .read, .ok bytes⟩ state') :
    state.disk.vault = some bytes := by
  cases may with
  | answers performed =>
      cases present : state.disk.vault with
      | none => simp [FileState.respond, Disk.apply, present] at performed
      | some stored =>
          simp only [FileState.respond, Disk.apply, present, Option.map_some, Option.some.injEq,
            Prod.mk.injEq, Except.ok.injEq] at performed
          rw [performed.1]
  | fails length failed => simp [FileOp.failed] at failed

theorem Filled.step {past : List FileEvent} (filled : Filled past (state.disk.temps number))
    (may : state.May number event state') : Filled (past ++ [event]) (state'.disk.temps number) where
  created := by
    intro last
    rw [List.getLast?_append, List.getLast?_singleton, Option.some_or, Option.some.injEq] at last
    subst last
    cases may with
    | answers performed =>
        cases performed
        simp [Disk.setTemp]
    | fails length failed => simp [FileOp.failed] at failed
  wrote := by
    intro front text last same
    obtain ⟨rfl, rfl⟩ := List.append_singleton_inj.mp same
    have empty := filled.created last
    cases may with
    | answers performed =>
        simp only [FileState.respond, Disk.apply, empty, Option.map_some, Option.some.injEq, Prod.mk.injEq] at performed
        rw [← performed.2]
        simp [Disk.setTemp]
    | fails length failed => simp [FileOp.failed] at failed
  flushed := by
    intro front text last same
    have split : front ++ filling text =
        (front ++ [⟨.storage (.writeAll text), .ok ()⟩]) ++ [⟨.storage .flush, .ok ()⟩] := by simp [filling]
    obtain ⟨rfl, rfl⟩ := List.append_singleton_inj.mp (same.trans split)
    have full := filled.wrote front text last rfl
    cases may with
    | answers performed =>
        cases performed
        exact full
    | fails length failed => simp [FileOp.failed] at failed

end May

section Act

variable {task : FileTask} {past : List FileEvent} {op : HostOp FileOp}
  {next : HostOp.Answer FileOp.Answer op → Host FileOp.Answer TaskResult}
  {answer : HostOp.Answer FileOp.Answer op} {files files' : FileState}

theorem Unrenamed.act (unrenamed : Unrenamed serde before ⟨task, past, .step op next⟩ files.disk)
    (quiet : FileEvent.Quiet ⟨op, answer⟩) (may : files.May number ⟨op, answer⟩ files')
    (looks : (⟨op, answer⟩ : FileEvent) = ⟨.storage .pathExists, false⟩ → files.disk.vault = none) :
    Unrenamed serde before ⟨task, past ++ [⟨op, answer⟩], next answer⟩ files'.disk where
  quiet := by
    intro event member
    rcases List.mem_append.mp member with old | new
    · exact unrenamed.quiet event old
    · cases List.mem_singleton.mp new
      exact quiet
  represents := unrenamed.represents.of_vault (may.vault quiet)
  read := by
    intro bytes member
    rw [may.vault quiet]
    rcases List.mem_append.mp member with old | new
    · exact unrenamed.read bytes old
    · rw [← List.mem_singleton.mp new] at may
      exact may.reads
  looked := by
    intro member
    rw [may.vault quiet]
    rcases List.mem_append.mp member with old | new
    · exact unrenamed.looked old
    · exact looks (List.mem_singleton.mp new).symm

theorem Flying.act (flying : Flying serde before number ⟨task, past, .step op next⟩ files.disk)
    (readsBack : serde.ReadsBack) (may : files.May number ⟨op, answer⟩ files')
    (tolerates : task.Tolerates ⟨op, answer⟩)
    (looks : (⟨op, answer⟩ : FileEvent) = ⟨.storage .pathExists, false⟩ → files.disk.vault = none) :
    Flying serde before number ⟨task, past ++ [⟨op, answer⟩], next answer⟩ files'.disk where
  leads := flying.leads.snoc answer
  tolerated := by
    intro event member
    rcases List.mem_append.mp member with old | new
    · exact flying.tolerated event old
    · exact List.mem_singleton.mp new ▸ tolerates
  temp := flying.temp.step may
  stands := by
    have stage := task_stage flying.leads flying.tolerated
    rcases flying.stands with unrenamed | ⟨already, holds⟩
    · by_cases renames_ : (⟨op, answer⟩ : FileEvent) = renamed
      · cases renames_
        obtain ⟨text, temp, replaced⟩ := may.renames
        cases stage with
        | before _ elsewhere _ => exact absurd rfl (elsewhere next)
        | @about front written _ quiet writes =>
            have created : front.getLast? = some createdTemp := by
              cases task <;> exact writes.1
            have filled := flying.temp.flushed front written created rfl
            rw [temp, Option.some.injEq] at filled
            subst filled
            refine .inr ⟨by simp [renamed], ?_⟩
            rcases unrenamed.renames readsBack (List.subset_append_left ..) writes replaced with
              opens | ⟨call, now, operates, captures, holds⟩
            · exact .inl opens
            · exact .inr ⟨call, now, operates, fun sweep => List.mem_append_left _ (captures sweep), holds⟩
        | after _ _ _ keeping _ => exact absurd rfl keeping.head
      · exact .inl (unrenamed.act renames_ may looks)
    · have keeping : Keeping op := by
        cases stage with
        | before quiet _ _ => exact absurd rfl (quiet _ already)
        | about quiet _ =>
            rcases List.mem_append.mp already with old | new
            · exact absurd rfl (quiet _ old)
            · exact absurd rfl (RenameStage.quiet_filling _ _ new)
        | after _ _ _ keeping _ => exact keeping.head
      have same := may.vault (Keeping.quiet keeping)
      refine .inr ⟨List.mem_append_left _ already, ?_⟩
      rcases holds with ⟨opens, holds⟩ | ⟨call, now, operates, captures, holds⟩
      · exact .inl ⟨opens, holds.of_vault same⟩
      · exact .inr ⟨call, now, operates, fun sweep => List.mem_append_left _ (captures sweep),
          holds.of_vault same⟩

end Act

theorem Flying.begin {task : FileTask} (represents : Represents serde disk before)
    (unused : disk.temps number = none) : Flying serde before number (task.thread serde) disk where
  leads := .refl _
  tolerated := by simp [FileTask.thread]
  temp := by
    rw [unused]
    exact ⟨by simp [FileTask.thread], by simp [FileTask.thread], by simp [FileTask.thread, filling]⟩
  stands := .inl ⟨by simp [FileTask.thread], represents, by simp [FileTask.thread], by simp [FileTask.thread]⟩

/-- A killed call has done all or nothing. -/
theorem Flying.killed (flying : Flying serde before number thread disk) :
    ∃ contents, Effect (.killed thread) before contents ∧ Represents serde disk contents := by
  rcases flying.stands with unrenamed | ⟨_, ⟨_, holds⟩ | ⟨call, now, operates, captures, holds⟩⟩
  · exact ⟨before, .nothing, unrenamed.represents⟩
  · exact ⟨before, .nothing, .inr holds⟩
  · exact ⟨_, .all operates captures, .inr holds⟩

/-- A call that returned has done what it reports. -/
theorem Flying.returned {result : TaskResult} (flying : Flying serde before number thread disk)
    (returned : thread.Returned result) :
    ∃ contents, Effect (.returned thread result) before contents ∧ Represents serde disk contents := by
  have stage := task_stage flying.leads flying.tolerated
  rw [returned] at stage
  obtain ⟨task, past, rest⟩ := thread
  rcases flying.stands with unrenamed | ⟨already, renamed_⟩
  · cases stage with
    | before _ _ skipped =>
        cases task with
        | new hasParent =>
            obtain ⟨opened, rfl⟩ := skipped _ rfl
            exact ⟨before, .opened, unrenamed.represents⟩
        | operate call =>
            obtain ⟨answer, rfl, failed | ⟨now, captures, bytes, state, read, parsed, unwritten⟩⟩ :=
              skipped _ rfl
            · exact ⟨before, .failed failed, unrenamed.represents⟩
            · by_cases failed : answer.Failed
              · exact ⟨before, .failed failed, unrenamed.represents⟩
              · have mirrors := @rewrite_mirrors _ now _ call.op (unrenamed.holds read parsed)
                rw [unwritten] at mirrors
                exact ⟨_, .succeeded rfl captures failed,
                  .inr ⟨bytes, state, unrenamed.read bytes read, parsed, mirrors⟩⟩
    | after => exact absurd rfl (unrenamed.quiet renamed (by simp))
  · cases stage with
    | before quiet _ _ => exact absurd rfl (quiet _ already)
    | after _ _ _ _ landed =>
        cases task with
        | new hasParent =>
            obtain ⟨opened, rfl⟩ := landed _ rfl
            rcases renamed_ with ⟨_, holds⟩ | ⟨call, now, impossible, _⟩
            · exact ⟨before, .opened, .inr holds⟩
            · contradiction
        | operate call =>
            obtain ⟨answer, rfl, succeeded⟩ := landed _ rfl
            rcases renamed_ with ⟨⟨_, impossible⟩, _⟩ | ⟨_, now, operates, captures, holds⟩
            · contradiction
            · exact ⟨_, .succeeded operates captures succeeded, .inr holds⟩

end Flight

variable {store : LocalFileStore} {initial : Contents} {vault : Option Bytes} {clock : DateTime}
  {labels : List (ProcessLabel serde)} {label : ProcessLabel serde} {process last : Process serde}

theorem endings_snoc_ends (ended : Ended serde) : endings (labels ++ [.ends ended]) = endings labels ++ [ended] := by
  simp [endings]

theorem endings_append_acts (events : List FileEvent) : endings (labels ++ events.map .act) = endings labels := by
  simp [endings]

theorem endings_snoc_begins (task : FileTask) : endings (labels ++ [.begins task]) = endings labels := by
  simp [endings]

/-- The calls that ended explain the file, but for the call in flight. -/
structure Tracked (initial : Contents) (ended : List (Ended serde)) (process : Process serde) : Prop where
  unused : ∀ number, process.number < number → process.files.disk.temps number = none
  explained : ∃ before, Applied initial ended before ∧
    match process.current with
    | none => Represents serde process.files.disk before
    | some thread => Flying serde before process.number thread process.files.disk

theorem Tracked.step (tracked : Tracked initial (endings labels) process) (readsBack : serde.ReadsBack)
    (sound : process.Sound label) (step : ProcessStep store process label last) :
    Tracked initial (endings (labels ++ [label])) last := by
  obtain ⟨unused, before, applied, standing⟩ := tracked
  cases step with
  | open_ =>
      refine ⟨fun other later => unused other (by simp only at later ⊢; omega), before,
        by simpa [endings] using applied, ?_⟩
      exact .begin standing (unused _ (Nat.lt_succ_self _))
  | operate op =>
      refine ⟨fun other later => unused other (by simp only at later ⊢; omega), before,
        by simpa [endings] using applied, ?_⟩
      exact .begin standing (unused _ (Nat.lt_succ_self _))
  | @act files files' opened number task past op next answer may =>
      refine ⟨fun other later => ?_, before, by simpa [endings] using applied,
        Flying.act standing readsBack may (sound.1 _ rfl) sound.2⟩
      simp only at later ⊢
      rw [may.others (by omega)]
      exact unused other later
  | returns =>
      obtain ⟨contents, effect, represents⟩ := Flying.returned standing rfl
      rw [endings_snoc_ends]
      exact ⟨unused, contents, applied.snoc effect, represents⟩
  | kill =>
      obtain ⟨contents, effect, represents⟩ := Flying.killed standing
      rw [endings_snoc_ends]
      exact ⟨unused, contents, applied.snoc effect, represents⟩
  | killIdle => exact ⟨unused, before, by simpa [endings] using applied, standing⟩
  | tick now => exact ⟨unused, before, by simpa [endings] using applied, standing⟩

theorem tracked (readsBack : serde.ReadsBack)
    (represents : Represents serde ⟨vault, fun _ => none⟩ initial)
    (run : ProcessRun Process.Sound store (.start vault clock) labels process) :
    Tracked initial (endings labels) process := by
  induction run with
  | refl => exact ⟨fun _ _ => rfl, initial, .nil, represents⟩
  | snoc _ sound step ih => exact ih.step readsBack sound step

/-- At every moment of every run, whatever else fails, the vault file decodes to what
the mutations that returned `Ok` made, each kill and the call in flight having done all
or nothing; if there is no file, that is nothing at all. -/
theorem vault_crash_atomic (readsBack : serde.ReadsBack)
    (represents : Represents serde ⟨vault, fun _ => none⟩ initial)
    (run : ProcessRun Process.Sound store (.start vault clock) labels process) :
    ∃ contents, Applied initial (endings labels ++ process.inFlight) contents ∧
      Represents serde process.files.disk contents := by
  obtain ⟨_, before, applied, standing⟩ := tracked readsBack represents run
  obtain ⟨files, opened, number, current⟩ := process
  cases current with
  | none =>
      rw [Process.inFlight, List.append_nil]
      exact ⟨before, applied, standing⟩
  | some thread =>
      obtain ⟨contents, effect, represented⟩ := Flying.killed standing
      exact ⟨contents, applied.snoc effect, represented⟩

section Building

variable {first : Process serde} {files files' : FileState} {opened : Bool} {number : Nat} {task : FileTask}
  {past events : List FileEvent} {rest rest' : Host FileOp.Answer TaskResult}

theorem sound_of_performed {op : HostOp FileOp} {answer : HostOp.Answer FileOp.Answer op}
    (performed : files.respond number op = some (answer, files')) (current : Option (Thread (taskSystem serde))) :
    Process.Sound ⟨files, opened, number, current⟩ (.act ⟨op, answer⟩) := by
  have answered : FileEvent.Answered ⟨op, answer⟩ := ⟨number, files, files', performed⟩
  refine ⟨fun thread _ => ?_, fun missing => ?_⟩
  · cases thread.call with
    | new hasParent => trivial
    | operate call => exact answered.tolerated
  · cases missing
    cases present : files.disk.vault with
    | none => rfl
    | some bytes => simp [FileState.respond, Disk.apply, present] at performed

/-- Not a step of the file system. -/
def ProcessLabel.Calm : ProcessLabel serde → Prop
  | .act _ => False
  | _ => True

theorem ProcessRun.weaken {ok ok' : Process serde → ProcessLabel serde → Prop}
    (weaker : ∀ process label, ok process label → ok' process label)
    (run : ProcessRun ok store first labels process) : ProcessRun ok' store first labels process := by
  induction run with
  | refl => exact .refl
  | snoc _ allowed step ih => exact ih.snoc (weaker _ _ allowed) step

theorem ProcessRun.goes (run : ProcessRun Process.Sound store first labels process)
    (step : ProcessStep store process label last) (calm : label.Calm) :
    ProcessRun Process.Sound store first (labels ++ [label]) last := by
  refine run.snoc ?_ step
  cases label with
  | act event => exact calm.elim
  | _ => trivial

/-- The current call goes on, and nothing fails. -/
theorem ProcessRun.acts
    (run : ProcessRun Process.Sound store first labels ⟨files, opened, number, some ⟨task, past, rest⟩⟩)
    (leads : Leads rest events rest') (acts : @Acts _ _ (taskSystem serde) number files events files') :
    ProcessRun Process.Sound store first (labels ++ events.map .act)
      ⟨files', opened, number, some ⟨task, past ++ events, rest'⟩⟩ := by
  induction leads generalizing labels files past with
  | refl =>
      have same := Acts.nil_inv acts
      subst same
      simpa using run
  | @step op next answer events rest tail ih =>
      obtain ⟨middle, performed, later⟩ := Acts.cons_inv acts
      have stepped := run.snoc (sound_of_performed performed _) (.act (.answers performed))
      simpa [List.append_assoc] using ih stepped later

/-- A step of the current call fails, other than restricting the permissions. -/
theorem ProcessRun.stumbles {op : FileOp} {answer : op.Answer}
    {next : op.Answer → Host FileOp.Answer TaskResult}
    (run : ProcessRun Process.Sound store first labels
      ⟨files, opened, number, some ⟨task, past, .step (.storage op) next⟩⟩)
    (message : String) (length : Nat) (failed : op.failed message = some answer) (harmless : op ≠ .setPermissions) :
    ProcessRun Process.Sound store first (labels ++ [.act ⟨.storage op, answer⟩])
      ⟨{ files with disk := files.disk.interrupted number length op }, opened, number,
        some ⟨task, past ++ [⟨.storage op, answer⟩], next answer⟩⟩ := by
  refine run.snoc ⟨fun thread _ => ?_, fun missing => ?_⟩ (.act (.fails length failed))
  · cases thread.call with
    | new hasParent => trivial
    | operate call =>
        intro other same
        cases same
        exact harmless rfl
  · cases missing
    contradiction

/-- The current call goes on to its end. -/
theorem ProcessRun.finishes {result : TaskResult}
    (run : ProcessRun Process.Sound store first labels ⟨files, opened, number, some ⟨task, past, rest⟩⟩)
    (ran : rest.run (FileState.respond number) files = some (result, files')) :
    ∃ events, ProcessRun Process.Sound store first (labels ++ events.map .act ++
        [.ends (.returned ⟨task, past ++ events, .done result⟩ result)])
      ⟨files', opened || result.opens, number, none⟩ := by
  obtain ⟨events, leads, acts⟩ :=
    @acts_of_run _ _ (taskSystem serde) _ number (FileState.respond number) (fun _ => True)
      (fun _ performed => ⟨performed, trivial⟩) _ _ _ _ trivial ran
  exact ⟨events, (run.acts leads acts).goes .returns trivial⟩

theorem Faults.respond_may {faults : Faults} {op : HostOp FileOp} {answer : HostOp.Answer FileOp.Answer op}
    (performed : faults.respond number files op = some (answer, files')) :
    files.May number ⟨op, answer⟩ files' := by
  cases op with
  | storage op =>
      cases failed : (faults.error op).bind op.failed with
      | none =>
          simp only [Faults.respond, failed] at performed
          exact .answers performed
      | some failure =>
          simp only [Faults.respond, failed, Option.some.injEq, Prod.mk.injEq] at performed
          obtain ⟨rfl, rfl⟩ := performed
          obtain ⟨message, _, fails⟩ := Option.bind_eq_some_iff.mp failed
          exact .fails faults.partialLength fails
  | _ => exact .answers performed

/-- The current call goes on to its end, with failures. -/
theorem ProcessRun.falters {faults : Faults} {result : TaskResult}
    (run : ProcessRun (fun _ _ => True) store first labels ⟨files, opened, number, some ⟨task, past, rest⟩⟩)
    (ran : rest.run (faults.respond number) files = some (result, files')) :
    ∃ events : List FileEvent, ∃ thread, ProcessRun (fun _ _ => True) store first
        (labels ++ events.map .act ++ [.ends (.returned thread result)])
      ⟨files', opened || result.opens, number, none⟩ := by
  induction rest generalizing labels files past with
  | done other =>
      cases ran
      exact ⟨[], _, by simpa using run.snoc trivial .returns⟩
  | step op next ih =>
      simp only [Program.run] at ran
      cases performed : faults.respond number files op with
      | none =>
          rw [performed] at ran
          contradiction
      | some reached =>
          rw [performed] at ran
          obtain ⟨events, thread, ended⟩ := ih reached.1
            (run.snoc trivial (.act (Faults.respond_may performed))) ran
          exact ⟨⟨op, reached.1⟩ :: events, thread, by simpa using ended⟩

end Building

theorem Applied.nil_inv {contents : Contents} (applied : @Applied serde initial [] contents) :
    contents = initial := by
  generalize same : [] = all at applied
  cases applied with
  | nil => rfl
  | snoc => simp at same

theorem Applied.snoc_inv {history : List (Ended serde)} {ended : Ended serde} {contents : Contents}
    (applied : Applied initial (history ++ [ended]) contents) :
    ∃ before, Applied initial history before ∧ Effect ended before contents := by
  generalize same : history ++ [ended] = all at applied
  cases applied with
  | nil => simp at same
  | snoc earlier effect =>
      obtain ⟨rfl, rfl⟩ := List.append_singleton_inj.mp same
      exact ⟨_, earlier, effect⟩

/-- The store is opened on a path without a vault file. -/
theorem opened_run : ∃ labels thread result disk, endings labels = [.returned thread (.opened result)] ∧
    Holds .concrete disk ∅ ∧
    ProcessRun Process.Sound ⟨true, 0⟩ (.start none .epoch) labels
      (⟨.idle disk .epoch, true, 1, none⟩ : Process .concrete) := by
  obtain ⟨disk, ran, present⟩ := @open_task_run .concrete _ rfl 1 ⟨none, fun _ => none⟩ rfl .epoch
  have idle : ProcessRun Process.Sound ⟨true, 0⟩ (Process.start none .epoch : Process .concrete) [] _ := .refl
  have begun := idle.goes .open_ trivial
  obtain ⟨events, opened⟩ := begun.finishes ran
  have ended := @endings_snoc_ends .concrete ([] ++ [.begins (.new true)] ++ events.map .act)
    (.returned ⟨.new true, [] ++ events, .done (.opened (.ok ()))⟩ (.opened (.ok ())) : Ended .concrete)
  rw [endings_append_acts] at ended
  exact ⟨_, _, .ok (), disk, ended, ⟨_, ∅, present, DiskState.fromSlice_concrete_empty, .empty⟩, opened⟩

/-- After the rename nothing changes the vault file. -/
theorem acts_vault {number : Nat} {files files' : FileState} {events : List FileEvent}
    (acts : @Acts _ _ (taskSystem serde) number files events files') (quiet : ∀ event ∈ events, event.Quiet) :
    files'.disk.vault = files.disk.vault := by
  induction events generalizing files with
  | nil => rw [Acts.nil_inv acts]
  | cons event events ih =>
      obtain ⟨middle, performed, later⟩ := Acts.cons_inv acts
      rw [ih later fun event member => quiet event (List.mem_cons_of_mem _ member)]
      exact FileState.May.vault (.answers performed) (quiet event List.mem_cons_self)

/-- An insert is stopped right after its rename. -/
theorem insert_renames (number : Nat) {disk : Disk} (empty : Holds .concrete disk ∅) :
    ∃ past rest, ∃ files : FileState,
      Leads ((FileTask.operate ⟨⟨true, 0⟩, .insert (.replicate 16 0) ⟨⟨[], []⟩, .epoch, none⟩⟩).code .concrete)
        past rest ∧
      @Acts _ _ (taskSystem .concrete) number (.idle disk .epoch) past files ∧ renamed ∈ past ∧
      Holds .concrete files.disk ((∅ : Contents).insert (.replicate 16 0) ⟨⟨[], []⟩, .epoch, none⟩) := by
  obtain ⟨disk', ran, holds⟩ := insert_task_run Serde.concrete_readsBack empty number 0 .epoch (.replicate 16 0)
    ⟨⟨[], []⟩, .epoch, none⟩
  obtain ⟨events, leads, acts⟩ :=
    @acts_of_run _ _ (taskSystem .concrete) _ number (FileState.respond number) (fun _ => True)
      (fun _ performed => ⟨performed, trivial⟩) _ _ _ _ trivial ran
  have tolerated : ∀ event ∈ events, FileEvent.Tolerated event := fun event member => by
    obtain ⟨state, state', performed⟩ := Acts.performed acts member
    exact FileEvent.Answered.tolerated ⟨number, state, state', performed⟩
  obtain ⟨middle, inside, same⟩ := leads.map_inv
  obtain ⟨result, rfl, isAnswer⟩ := map_eq_done same.symm
  cases isAnswer
  cases call_stage inside tolerated with
  | before _ _ skipped =>
      obtain ⟨_, ⟨error, failed⟩ | ⟨_, _, _, _, _, _, unwritten⟩⟩ := skipped _ rfl <;> contradiction
  | @after front text tail _ _ _ quietTail _ _ =>
      have split : front ++ filling text ++ renamed :: tail = (front ++ filling text ++ [renamed]) ++ tail := by
        simp
      rw [split] at leads acts
      obtain ⟨rest, first, _⟩ := leads.cut
      obtain ⟨files, upTo, later⟩ := Acts.cut acts
      refine ⟨_, rest, files, first, upTo, by simp, holds.of_vault ?_⟩
      exact (acts_vault later quietTail).symm

/-- An insert is killed right after its rename, and the store is opened again. A second
insert cannot open the sidecar file and fails. The first record is there. -/
theorem vault_crash_atomic_killed :
    ∃ labels, ∃ process : Process .concrete, ∃ contents killed result,
      ProcessRun Process.Sound ⟨true, 0⟩ (.start none .epoch) labels process ∧
      .ends (.killed killed) ∈ labels ∧
      killed.call = .operate ⟨⟨true, 0⟩, .insert (.replicate 16 0) ⟨⟨[], []⟩, .epoch, none⟩⟩ ∧
      renamed ∈ killed.past ∧ (∃ thread, .ends (.returned thread (.answered result)) ∈ labels) ∧ result.Failed ∧
      Applied ∅ (endings labels ++ process.inFlight) contents ∧
      Represents .concrete process.files.disk contents ∧
      contents[FixedBytes.replicate 16 0]? = some ⟨⟨[], []⟩, .epoch, none⟩ := by
  obtain ⟨_, _, _, disk, _, empty, opened⟩ := opened_run
  obtain ⟨past, rest, files, leads, acts, renames, holds⟩ := insert_renames 2 empty
  have begun := opened.goes (.operate (.insert (.replicate 16 0) ⟨⟨[], []⟩, .epoch, none⟩)) trivial
  have killed := (begun.acts leads acts).goes .kill trivial
  have again := killed.goes .open_ trivial
  obtain ⟨bytes, state, present, parsed⟩ := holds.parses
  obtain ⟨_, reopened⟩ := again.finishes (reopen_task_run 3 present files.clock)
  have second := reopened.goes (.operate (.insert (.replicate 16 1) ⟨⟨[], []⟩, .epoch, none⟩)) trivial
  have locked := second.acts (.step (.refl _)) (.cons rfl .nil)
  have refused := locked.stumbles "Too many open files (os error 24)" 0 rfl (by simp)
  obtain ⟨_, ended⟩ := refused.finishes rfl
  obtain ⟨contents, applied, represents⟩ :=
    vault_crash_atomic Serde.concrete_readsBack (.inl ⟨rfl, rfl⟩) ended
  have same : contents = (∅ : Contents).insert (.replicate 16 0) ⟨⟨[], []⟩, .epoch, none⟩ :=
    represents.unique holds
  refine ⟨_, _, contents, ⟨_, past, rest⟩, _, ended, by simp, rfl, renames,
    ⟨_, List.mem_append_right _ (List.mem_singleton_self _)⟩, ?_, applied, represents, ?_⟩
  · exact ⟨_, rfl⟩
  · rw [same, Contents.getElem?_insert_self]

/-- An insert cannot set the permissions after its rename and reports an error, but its
record is there. -/
theorem failed_insert_applied :
    ∃ labels, ∃ process : Process .concrete,
      ProcessRun (fun _ _ => True) ⟨true, 0⟩ (.start none .epoch) labels process ∧
      ¬ ∃ contents, Applied ∅ (endings labels ++ process.inFlight) contents ∧
        Represents .concrete process.files.disk contents := by
  obtain ⟨labels, opener, opening, disk, ended, empty, opened⟩ := opened_run
  obtain ⟨result, disk', attempted, failed, holds⟩ := insert_attempt_late empty 2 ⟨⟨[], []⟩, .epoch, none⟩
  obtain ⟨⟨answer, files⟩, ran, same⟩ := Option.map_eq_some_iff.mp attempted
  cases same
  have begun := (opened.weaken fun _ _ _ => trivial).snoc trivial
    (.operate (.insert (.replicate 16 0) ⟨⟨[], []⟩, .epoch, none⟩))
  obtain ⟨events, thread, late⟩ := begun.falters ((run_map ..).trans (congrArg _ ran))
  refine ⟨_, _, late, fun explained => ?_⟩
  obtain ⟨contents, applied, represents⟩ := explained
  have history : endings (labels ++ [.begins (.operate ⟨⟨true, 0⟩, .insert (.replicate 16 0)
      ⟨⟨[], []⟩, .epoch, none⟩⟩)] ++ events.map .act ++ [.ends (.returned thread (.answered answer))]) =
        ([] ++ [.returned opener (.opened opening)]) ++ [.returned thread (.answered answer)] := by
    rw [endings_snoc_ends, endings_append_acts, endings_snoc_begins, ended]
    rfl
  rw [Process.inFlight, List.append_nil, history] at applied
  obtain ⟨before, first, second⟩ := applied.snoc_inv
  obtain ⟨start, initial, opens⟩ := first.snoc_inv
  have unchanged : contents = before := by
    cases second with
    | failed => rfl
    | succeeded _ _ succeeded => exact absurd failed succeeded
  have same : before = start := by
    cases opens
    rfl
  rw [unchanged, same, initial.nil_inv] at represents
  exact Std.ExtTreeMap.insert_ne_empty (represents.unique holds).symm

end TariVault
